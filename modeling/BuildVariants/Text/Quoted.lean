import BuildVariants.Text.Hidden

/-!
# Quoted text

Messages quote a text between double quotes. A quote, a backslash and the common
controls get short escapes; every other hidden character is written as its code point
in lower-case hexadecimal without padding. All else stands for itself.
-/

set_option autoImplicit false

namespace BuildVariants.Text

def codePointEscape (c : Char) : String :=
  "\\u\x7b" ++ String.ofList (Nat.toDigits 16 c.toNat) ++ "\x7d"

def quoteChar (c : Char) : String :=
  if c = '"' then "\\\""
  else if c = '\\' then "\\\\"
  else if c = '\t' then "\\t"
  else if c = '\r' then "\\r"
  else if c = '\n' then "\\n"
  else if c.toNat = 0 then "\\0"
  else if isHidden c then codePointEscape c
  else c.toString

def quote (s : String) : String := "\"" ++ String.join (s.toList.map quoteChar) ++ "\""

end BuildVariants.Text
