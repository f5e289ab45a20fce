/-!
# Bytes as characters

Scripts are read and written byte by byte. A byte is shown as the character of the same
number, so that the rules for blanks, digits and letters can be stated on characters.
-/

set_option autoImplicit false

namespace BuildVariants.Text

def byteChars (bytes : ByteArray) : List Char := bytes.toList.map fun b => Char.ofNat b.toNat

def ofByteChars (cs : List Char) : ByteArray := ⟨(cs.map fun c => c.toNat.toUInt8).toArray⟩

def isSpace (c : Char) : Bool := c = ' ' || (9 ≤ c.toNat && c.toNat ≤ 13)

def isPrintable (c : Char) : Bool := 32 ≤ c.toNat && c.toNat < 127

def isControl (c : Char) : Bool := c.toNat < 32 || c.toNat = 127

def isGraph (c : Char) : Bool := 32 < c.toNat && c.toNat < 127

def isPunctuation (c : Char) : Bool := isGraph c && !c.isAlphanum

def isHexDigit (c : Char) : Bool :=
  c.isDigit || ('a' ≤ c && c ≤ 'f') || ('A' ≤ c && c ≤ 'F')

def digitValue (c : Char) : Nat :=
  if c.isDigit then c.toNat - '0'.toNat
  else if 'a' ≤ c then c.toNat - 'a'.toNat + 10
  else c.toNat - 'A'.toNat + 10

def valueIn (base : Nat) (digits : List Char) : Nat :=
  digits.foldl (fun acc c => acc * base + digitValue c) 0

def beforeNull (bytes : ByteArray) : ByteArray :=
  ⟨bytes.data.takeWhile fun b => b ≠ 0⟩

def bytesLess : List UInt8 → List UInt8 → Bool
  | _, [] => false
  | [], _ :: _ => true
  | a :: as, b :: bs => if a = b then bytesLess as bs else a < b

end BuildVariants.Text
