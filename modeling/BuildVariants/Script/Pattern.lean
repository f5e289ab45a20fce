import BuildVariants.Text.Bytes

/-!
# Patterns

A pattern describes texts by character classes, repetitions, captures, balanced brackets and
borders. Matching tries the alternatives in order and goes back where one fails. A pattern is
looked at only as far as a match gets, so what is wrong with it may stay unnoticed.
-/

set_option autoImplicit false

namespace BuildVariants.Script

namespace Pattern

open Text

inductive Fault
  | endsWithEscape
  | unclosedSet
  | noBrackets
  | noBorderSet
  | tooManyCaptures
  | nothingToClose
  | unfinishedCapture
  | noCapture (n : Int)
  | noCaptureToInsert (n : Nat)
  | badInsertion
  | tooComplex
deriving DecidableEq, Repr

def Fault.message : Fault → String
  | .endsWithEscape => "malformed pattern (ends with '%')"
  | .unclosedSet => "malformed pattern (missing ']')"
  | .noBrackets => "malformed pattern (missing arguments to '%b')"
  | .noBorderSet => "missing '[' after '%f' in pattern"
  | .tooManyCaptures => "too many captures"
  | .nothingToClose => "invalid pattern capture"
  | .unfinishedCapture => "unfinished capture"
  | .noCapture n => "invalid capture index %" ++ toString n
  | .noCaptureToInsert n => "invalid capture index %" ++ toString n ++ " in replacement string"
  | .badInsertion => "invalid use of '%' in replacement string"
  | .tooComplex => "pattern too complex"

inductive Extent
  | unfinished
  | position
  | size (n : Nat)
deriving DecidableEq, Repr

structure Captured where
  start : Nat
  extent : Extent
deriving DecidableEq, Repr

abbrev Captures := Array Captured

def captureLimit : Nat := 32

def depthLimit : Nat := 200

/-- The byte at a position; there is a null byte behind the end. -/
def byteAt (bytes : ByteArray) (i : Nat) : Char :=
  if h : i < bytes.size then Char.ofNat bytes[i].toNat else '\x00'

def inClass (c class_ : Char) : Bool :=
  let result? : Option Bool := match class_.toLower with
    | 'a' => some c.isAlpha
    | 'c' => some (isControl c)
    | 'd' => some c.isDigit
    | 'g' => some (isGraph c)
    | 'l' => some c.isLower
    | 'p' => some (isPunctuation c)
    | 's' => some (isSpace c)
    | 'u' => some c.isUpper
    | 'w' => some c.isAlphanum
    | 'x' => some (isHexDigit c)
    | 'z' => some (c = '\x00')
    | _ => none
  match result? with
  | some result => if class_.isUpper then !result else result
  | none => class_ = c

def setEnd (pattern : ByteArray) : Nat → Nat → Except Fault Nat
  | 0, _ => .error .unclosedSet
  | fuel + 1, p =>
    if pattern.size ≤ p then .error .unclosedSet
    else
      let next := if byteAt pattern p = '%' then p + 2 else p + 1
      if next < pattern.size ∧ byteAt pattern next = ']' then .ok (next + 1)
      else setEnd pattern fuel next

def classEnd (pattern : ByteArray) (p : Nat) : Except Fault Nat :=
  match byteAt pattern p with
  | '%' => if pattern.size ≤ p + 1 then .error .endsWithEscape else .ok (p + 2)
  | '[' => setEnd pattern (pattern.size + 1) (if byteAt pattern (p + 1) = '^' then p + 2 else p + 1)
  | _ => .ok (p + 1)

def amongMembers (pattern : ByteArray) (c : Char) (stop : Nat) : Nat → Nat → Bool
  | 0, _ => false
  | fuel + 1, p =>
    if stop ≤ p then false
    else if byteAt pattern p = '%' then
      inClass c (byteAt pattern (p + 1)) || amongMembers pattern c stop fuel (p + 2)
    else if byteAt pattern (p + 1) = '-' ∧ p + 2 < stop then
      (byteAt pattern p ≤ c && c ≤ byteAt pattern (p + 2)) || amongMembers pattern c stop fuel (p + 3)
    else byteAt pattern p = c || amongMembers pattern c stop fuel (p + 1)

def inSet (pattern : ByteArray) (c : Char) (p stop : Nat) : Bool :=
  if byteAt pattern (p + 1) = '^' then !amongMembers pattern c stop (stop - p) (p + 2)
  else amongMembers pattern c stop (stop - p) (p + 1)

def takes (subject pattern : ByteArray) (s p stop : Nat) : Bool :=
  if s < subject.size then
    let c := byteAt subject s
    match byteAt pattern p with
    | '.' => true
    | '%' => inClass c (byteAt pattern (p + 1))
    | '[' => inSet pattern c p (stop - 1)
    | d => d = c
  else false

def countTaken (subject pattern : ByteArray) (p stop : Nat) : Nat → Nat → Nat
  | 0, _ => 0
  | fuel + 1, s =>
    if takes subject pattern s p stop then countTaken subject pattern p stop fuel (s + 1) + 1 else 0

def balanced (subject : ByteArray) (opening closing : Char) : Nat → Nat → Nat → Option Nat
  | 0, _, _ => none
  | fuel + 1, depth, s =>
    if subject.size ≤ s then none
    else
      let c := byteAt subject s
      if c = closing then
        if depth = 1 then some (s + 1) else balanced subject opening closing fuel (depth - 1) (s + 1)
      else balanced subject opening closing fuel (if c = opening then depth + 1 else depth) (s + 1)

def openCapture? (captures : Captures) : Nat → Option Nat
  | 0 => none
  | n + 1 =>
    if (captures[n]?.map Captured.extent) = some .unfinished then some n
    else openCapture? captures n

def repeats (subject : ByteArray) (start size s : Nat) : Bool :=
  s + size ≤ subject.size && subject.extract start (start + size) == subject.extract s (s + size)

abbrev Trial := Except Fault (Option (Nat × Captures))

def tryDown (rest : Nat → Trial) (low : Nat) : Nat → Trial
  | 0 => rest low
  | n + 1 =>
    match rest (low + n + 1) with
    | .ok none => tryDown rest low n
    | found => found

def tryUp (rest : Nat → Trial) (taken : Nat → Bool) : Nat → Nat → Trial
  | 0, s => rest s
  | fuel + 1, s =>
    match rest s with
    | .ok none => if taken s then tryUp rest taken fuel (s + 1) else .ok none
    | found => found

def attempt (subject pattern : ByteArray) : Nat → Nat → Nat → Nat → Captures → Trial
  | 0, _, _, _, _ => .error .tooComplex
  | fuel + 1, depth, s, p, captures =>
    if depthLimit < depth then .error .tooComplex
    else if pattern.size ≤ p then .ok (some (s, captures))
    else
      let single : Unit → Trial := fun _ =>
        match classEnd pattern p with
        | .error e => .error e
        | .ok stop =>
          let suffix := byteAt pattern stop
          let isTaken := takes subject pattern s p stop
          match suffix with
          | '?' =>
            if isTaken then
              match attempt subject pattern fuel (depth + 1) (s + 1) (stop + 1) captures with
              | .ok none => attempt subject pattern fuel depth s (stop + 1) captures
              | found => found
            else attempt subject pattern fuel depth s (stop + 1) captures
          | '-' =>
            if isTaken then
              tryUp (fun s => attempt subject pattern fuel (depth + 1) s (stop + 1) captures)
                (fun s => takes subject pattern s p stop) (subject.size + 1) s
            else attempt subject pattern fuel depth s (stop + 1) captures
          | '*' =>
            if isTaken then
              tryDown (fun s => attempt subject pattern fuel (depth + 1) s (stop + 1) captures) s
                (countTaken subject pattern p stop (subject.size + 1) s)
            else attempt subject pattern fuel depth s (stop + 1) captures
          | '+' =>
            if isTaken then
              tryDown (fun s => attempt subject pattern fuel (depth + 1) s (stop + 1) captures)
                (s + 1) (countTaken subject pattern p stop (subject.size + 1) (s + 1))
            else .ok none
          | _ =>
            if isTaken then attempt subject pattern fuel depth (s + 1) stop captures else .ok none
      match byteAt pattern p, byteAt pattern (p + 1) with
      | '(', next =>
        if captureLimit ≤ captures.size then .error .tooManyCaptures
        else if next = ')' then
          attempt subject pattern fuel (depth + 1) s (p + 2) (captures.push ⟨s, .position⟩)
        else attempt subject pattern fuel (depth + 1) s (p + 1) (captures.push ⟨s, .unfinished⟩)
      | ')', _ =>
        match openCapture? captures captures.size with
        | none => .error .nothingToClose
        | some i =>
          attempt subject pattern fuel (depth + 1) s (p + 1)
            (captures.modify i fun c => ⟨c.start, .size (s - c.start)⟩)
      | '$', _ =>
        if p + 1 = pattern.size then .ok (if s = subject.size then some (s, captures) else none)
        else single ()
      | '%', 'b' =>
        if pattern.size ≤ p + 3 then .error .noBrackets
        else if byteAt subject s ≠ byteAt pattern (p + 2) then .ok none
        else
          match balanced subject (byteAt pattern (p + 2)) (byteAt pattern (p + 3))
              (subject.size + 1) 1 (s + 1) with
          | some s => attempt subject pattern fuel depth s (p + 4) captures
          | none => .ok none
      | '%', 'f' =>
        if byteAt pattern (p + 2) ≠ '[' then .error .noBorderSet
        else
          match classEnd pattern (p + 2) with
          | .error e => .error e
          | .ok stop =>
            let previous := if s = 0 then '\x00' else byteAt subject (s - 1)
            if !inSet pattern previous (p + 2) (stop - 1)
                && inSet pattern (byteAt subject s) (p + 2) (stop - 1) then
              attempt subject pattern fuel depth s stop captures
            else .ok none
      | '%', next =>
        if next.isDigit then
          match next.toNat - '0'.toNat with
          | 0 => .error (.noCapture 0)
          | n + 1 =>
            match captures[n]? with
            | some ⟨start, .size size⟩ =>
              if repeats subject start size s then
                attempt subject pattern fuel depth (s + size) (p + 2) captures
              else .ok none
            | some ⟨_, .position⟩ => .ok none
            | _ => .error (.noCapture (n + 1))
        else single ()
      | _, _ => single ()

def matchAt (subject pattern : ByteArray) (s p : Nat) : Trial :=
  attempt subject pattern ((depthLimit + 2) * (pattern.size + 2)) 1 s p #[]

structure Found where
  start : Nat
  stop : Nat
  captures : Captures

def findFrom (subject pattern : ByteArray) (p : Nat) (anchored : Bool) (excluded : Option Nat) :
    Nat → Nat → Except Fault (Option Found)
  | 0, _ => .ok none
  | fuel + 1, s =>
    if subject.size < s then .ok none
    else
      match matchAt subject pattern s p with
      | .error e => .error e
      | .ok (some (stop, captures)) =>
        if excluded = some stop then
          if anchored then .ok none else findFrom subject pattern p anchored excluded fuel (s + 1)
        else .ok (some ⟨s, stop, captures⟩)
      | .ok none =>
        if anchored then .ok none else findFrom subject pattern p anchored excluded fuel (s + 1)

def isAnchored (pattern : ByteArray) : Bool := 0 < pattern.size && byteAt pattern 0 = '^'

def find (subject pattern : ByteArray) (start : Nat) : Except Fault (Option Found) :=
  let anchored := isAnchored pattern
  findFrom subject pattern (if anchored then 1 else 0) anchored none (subject.size + 2) start

def isPlain (pattern : ByteArray) : Bool :=
  (byteChars pattern).all fun c => c ∉ ['^', '$', '*', '+', '?', '.', '(', '[', '%', '-']

def findPlain (subject text : ByteArray) : Nat → Nat → Option Nat
  | 0, _ => none
  | fuel + 1, s =>
    if subject.size < s + text.size then none
    else if subject.extract s (s + text.size) == text then some s
    else findPlain subject text fuel (s + 1)

inductive Held
  | position (n : Nat)
  | text (bytes : ByteArray)

/-- What the capture of a number, counted from zero, holds. A match without captures is its
own first capture. -/
def Found.capture (f : Found) (subject : ByteArray) (n : Nat) : Except Fault Held :=
  match f.captures[n]? with
  | some ⟨start, .size size⟩ => .ok (.text (subject.extract start (start + size)))
  | some ⟨start, .position⟩ => .ok (.position (start + 1))
  | some ⟨_, .unfinished⟩ => .error .unfinishedCapture
  | none =>
    if n = 0 then .ok (.text (subject.extract f.start f.stop)) else .error (.noCaptureToInsert (n + 1))

def Found.all (f : Found) (subject : ByteArray) : Except Fault (List Held) :=
  (List.range (max 1 f.captures.size)).mapM (f.capture subject)

def Found.captured (f : Found) (subject : ByteArray) : Except Fault (List Held) :=
  (List.range f.captures.size).mapM (f.capture subject)

end Pattern

end BuildVariants.Script
