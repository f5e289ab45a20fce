import BuildVariants.Script.Numeral
import BuildVariants.Text.Utf8

/-!
# Tokens of scripts

A script is scanned into names, reserved words, marks, numerals and texts. Blanks and
comments only separate tokens. Tokens are scanned one by one as they are needed, so that a
script is refused at the first place where it goes wrong.
-/

set_option autoImplicit false

namespace BuildVariants.Script

inductive Token
  | finish
  | name (s : String)
  | word (s : String)
  | mark (s : String)
  | numeral (n : Numeral) (shown : List Char)
  | text (bytes : ByteArray) (shown : List Char)

namespace Token

open Text

structure Fault where
  message : String
  near : List Char
  line : Nat

structure Input where
  rest : List Char
  line : Nat

def reserved : List String :=
  ["and", "break", "do", "else", "elseif", "end", "false", "for", "function", "goto", "if",
   "in", "local", "nil", "not", "or", "repeat", "return", "then", "true", "until", "while"]

def longMarks : List String := ["...", "..", "==", "~=", "<=", ">=", "//", "::", "<<", ">>"]

def isNewline (c : Char) : Bool := c = '\n' || c = '\r'

def isNameStart (c : Char) : Bool := c.isAlpha || c = '_'

def isNameChar (c : Char) : Bool := c.isAlphanum || c = '_'

def quoted (cs : List Char) : List Char := '\'' :: cs.takeWhile (· ≠ '\x00') ++ ['\'']

def shown : Token → List Char
  | finish => "<eof>".toList
  | name s => quoted s.toList
  | word s => quoted s.toList
  | mark s =>
    match s.toList with
    | [c] =>
      if isPrintable c then quoted [c]
      else quoted ("<\\".toList ++ (toString c.toNat).toList ++ ['>'])
    | cs => quoted cs
  | numeral _ raw => quoted raw
  | text _ raw => quoted raw

def afterNewline (c : Char) : List Char → List Char
  | d :: rest => if isNewline d && d ≠ c then rest else d :: rest
  | [] => []

def skipSpace : Nat → Input → Input
  | n + 1, ⟨c :: rest, line⟩ =>
    if isNewline c then skipSpace n ⟨afterNewline c rest, line + 1⟩
    else if isSpace c then skipSpace n ⟨rest, line⟩
    else ⟨c :: rest, line⟩
  | _, i => i

def levelOf (cs : List Char) : Nat × List Char :=
  ((cs.takeWhile (· = '=')).length, cs.dropWhile (· = '='))

/-- The content of a long bracket up to its end, reversed. Every line end is kept as a line
feed. Nothing is found if the bracket does not end. -/
def longContent (level : Nat) : Nat → List Char → Input → Option (List Char × Input)
  | n + 1, content, ⟨c :: rest, line⟩ =>
    if c = ']' then
      match levelOf rest with
      | (k, d :: after) =>
        if k = level && d = ']' then some (content, ⟨after, line⟩)
        else longContent level n (List.replicate k '=' ++ ']' :: content) ⟨d :: after, line⟩
      | (_, []) => none
    else if isNewline c then longContent level n ('\n' :: content) ⟨afterNewline c rest, line + 1⟩
    else longContent level n (c :: content) ⟨rest, line⟩
  | _, _, _ => none

def lastLine (size : Nat) (i : Input) : Nat :=
  match size, i with
  | n + 1, ⟨c :: rest, line⟩ =>
    if isNewline c then lastLine n ⟨afterNewline c rest, line + 1⟩ else lastLine n ⟨rest, line⟩
  | _, ⟨_, line⟩ => line

def longText (size : Nat) (what : String) (level : Nat) (i : Input) :
    Except Fault (List Char × Input) :=
  let start := match i.rest with
    | c :: rest => if isNewline c then ⟨afterNewline c rest, i.line + 1⟩ else i
    | [] => i
  match longContent level size [] start with
  | some (content, after) => .ok (content.reverse, after)
  | none =>
    .error ⟨"unfinished long " ++ what ++ " (starting at line " ++ toString i.line ++ ")",
      "<eof>".toList, lastLine size i⟩

def simpleEscape? (c : Char) : Option Char :=
  if c = 'a' then some '\x07'
  else if c = 'b' then some '\x08'
  else if c = 't' then some '\t'
  else if c = 'n' then some '\n'
  else if c = 'v' then some '\x0b'
  else if c = 'f' then some '\x0c'
  else if c = 'r' then some '\r'
  else if c = '\\' || c = '"' || c = '\'' then some c
  else none

abbrev Draft := List Char

def badEscape {α : Type} (message : String) (draft : Draft) (read : List Char)
    (unexpected : List Char) (line : Nat) : Except Fault α :=
  .error ⟨message, quoted (draft.reverse ++ read ++ unexpected.take 1), line⟩

def hexEscape (draft : Draft) (i : Input) : Except Fault (Draft × Input) :=
  let digits := (i.rest.take 2).takeWhile isHexDigit
  let after := i.rest.drop digits.length
  if digits.length = 2 then
    .ok (Char.ofNat (valueIn 16 digits) :: draft, ⟨after, i.line⟩)
  else badEscape "hexadecimal digit expected" draft ("\\x".toList ++ digits) after i.line

def codePoint (draft : Draft) (line : Nat) (value : Nat) (read : List Char) :
    List Char → Except Fault (Nat × List Char × List Char)
  | c :: rest =>
    if isHexDigit c then
      if value < 0x8000000 then
        codePoint draft line (value * 16 + digitValue c) (c :: read) rest
      else badEscape "UTF-8 value too large" draft read.reverse (c :: rest) line
    else .ok (value, read, c :: rest)
  | [] => .ok (value, read, [])

def unicodeEscape (draft : Draft) (i : Input) : Except Fault (Draft × Input) :=
  match i.rest with
  | '\x7b' :: inner => do
    let (value, read, after) ← codePoint draft i.line 0 ("\\u\x7b".toList.reverse) inner
    if read.length = 3 then
      badEscape "hexadecimal digit expected" draft read.reverse after i.line
    else
      match after with
      | '\x7d' :: rest =>
        let bytes := (encodeWide value).map fun b => Char.ofNat b.toNat
        .ok (bytes.reverse ++ draft, ⟨rest, i.line⟩)
      | after => badEscape "missing '\x7d'" draft read.reverse after i.line
  | after => badEscape "missing '\x7b'" draft "\\u".toList after i.line

def decimalEscape (draft : Draft) (i : Input) : Except Fault (Draft × Input) :=
  let digits := (i.rest.take 3).takeWhile Char.isDigit
  let after := i.rest.drop digits.length
  let value := valueIn 10 digits
  if value < 256 then .ok (Char.ofNat value :: draft, ⟨after, i.line⟩)
  else badEscape "decimal escape too large" draft ('\\' :: digits) after i.line

def escape (size : Nat) (draft : Draft) (i : Input) : Except Fault (Draft × Input) :=
  match i.rest with
  | [] => .ok ('\\' :: draft, i)
  | c :: rest =>
    match simpleEscape? c with
    | some b => .ok (b :: draft, ⟨rest, i.line⟩)
    | none =>
      if isNewline c then .ok ('\n' :: draft, ⟨afterNewline c rest, i.line + 1⟩)
      else if c = 'z' then .ok (draft, skipSpace size ⟨rest, i.line⟩)
      else if c = 'x' then hexEscape draft ⟨rest, i.line⟩
      else if c = 'u' then unicodeEscape draft ⟨rest, i.line⟩
      else if c.isDigit then decimalEscape draft i
      else badEscape "invalid escape sequence" draft ['\\'] (c :: rest) i.line

def shortText (size : Nat) (quote : Char) : Nat → Draft → Input → Except Fault (Draft × Input)
  | n + 1, draft, ⟨c :: rest, line⟩ =>
    if c = quote then .ok (draft, ⟨rest, line⟩)
    else if isNewline c then
      .error ⟨"unfinished string", quoted draft.reverse, line⟩
    else if c = '\\' then
      match escape size draft ⟨rest, line⟩ with
      | .ok (draft, i) => shortText size quote n draft i
      | .error e => .error e
    else shortText size quote n (c :: draft) ⟨rest, line⟩
  | _, _, ⟨_, line⟩ => .error ⟨"unfinished string", "<eof>".toList, line⟩

def scanNumeral (i : Input) : Except Fault (Token × Input) :=
  let (taken, after) := Numeral.take i.rest
  let malformed (cs : List Char) : Except Fault (Token × Input) :=
    .error ⟨"malformed number", quoted cs, i.line⟩
  match after with
  | c :: _ =>
    if isNameStart c then malformed (taken ++ [c])
    else
      match Numeral.ofChars? taken with
      | some n => .ok (.numeral n taken, ⟨after, i.line⟩)
      | none => malformed taken
  | [] =>
    match Numeral.ofChars? taken with
    | some n => .ok (.numeral n taken, ⟨[], i.line⟩)
    | none => malformed taken

def scanName (i : Input) : Token × Input :=
  let s := String.ofList (i.rest.takeWhile isNameChar)
  (if s ∈ reserved then .word s else .name s, ⟨i.rest.dropWhile isNameChar, i.line⟩)

def scanMark (c : Char) (rest : List Char) (line : Nat) : Token × Input :=
  match longMarks.find? fun m => m.toList.isPrefixOf (c :: rest) with
  | some m => (.mark m, ⟨(c :: rest).drop m.length, line⟩)
  | none => (.mark c.toString, ⟨rest, line⟩)

def scanBracket (size : Nat) (rest : List Char) (line : Nat) : Except Fault (Token × Input) :=
  match levelOf rest with
  | (level, '[' :: inner) => do
    let (content, after) ← longText size "string" level ⟨inner, line⟩
    let fence := List.replicate level '='
    return (.text (ofByteChars content)
      ('[' :: fence ++ '[' :: content ++ ']' :: fence ++ [']']), after)
  | (0, _) => .ok (.mark "[", ⟨rest, line⟩)
  | (level, _) =>
    .error ⟨"invalid long string delimiter", quoted ('[' :: List.replicate level '='), line⟩

def scanAt (size : Nat) (c : Char) (rest : List Char) (line : Nat) :
    Except Fault (Token × Input) :=
  if c = '"' || c = '\'' then do
    let (draft, after) ← shortText size c size [c] ⟨rest, line⟩
    return (.text (ofByteChars (draft.reverse.drop 1)) (draft.reverse ++ [c]), after)
  else if c.isDigit || (c = '.' && rest.head?.any Char.isDigit) then scanNumeral ⟨c :: rest, line⟩
  else if isNameStart c then .ok (scanName ⟨c :: rest, line⟩)
  else if c = '[' then scanBracket size rest line
  else .ok (scanMark c rest line)

def skipComment (size : Nat) (rest : List Char) (line : Nat) : Except Fault Input :=
  match rest with
  | '[' :: inner =>
    match levelOf inner with
    | (level, '[' :: content) => (longText size "comment" level ⟨content, line⟩).map Prod.snd
    | _ => .ok ⟨rest.dropWhile fun c => !isNewline c, line⟩
  | _ => .ok ⟨rest.dropWhile fun c => !isNewline c, line⟩

def scan (size : Nat) : Nat → Input → Except Fault (Token × Input)
  | n + 1, ⟨c :: rest, line⟩ =>
    if isNewline c then scan size n ⟨afterNewline c rest, line + 1⟩
    else if isSpace c then scan size n ⟨rest, line⟩
    else if c = '-' then
      match rest with
      | '-' :: comment =>
        match skipComment size comment line with
        | .ok after => scan size n after
        | .error e => .error e
      | rest => .ok (.mark "-", ⟨rest, line⟩)
    else scanAt size c rest line
  | _, ⟨_, line⟩ => .ok (.finish, ⟨[], line⟩)

end Token

end BuildVariants.Script
