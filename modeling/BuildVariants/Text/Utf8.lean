/-!
# Bytes and texts

Reading bytes as UTF-8. Bytes that are no text can still be shown: every longest run that
could begin a character and does not complete one becomes a replacement character.
-/

set_option autoImplicit false

namespace BuildVariants.Text

def decode? (bytes : ByteArray) : Option String := String.fromUTF8? bytes

def replacement : Char := Char.ofNat 0xfffd

def isContinuation (b : Nat) : Bool := 0x80 ≤ b && b < 0xc0

/-- Whether `b` may follow a leading byte. It excludes overlong forms, surrogates and values
beyond the last code point. -/
def maySecond (lead b : Nat) : Bool :=
  if lead = 0xe0 then 0xa0 ≤ b && b < 0xc0
  else if lead = 0xed then 0x80 ≤ b && b < 0xa0
  else if lead = 0xf0 then 0x90 ≤ b && b < 0xc0
  else if lead = 0xf4 then 0x80 ≤ b && b < 0x90
  else isContinuation b

def width (lead : Nat) : Nat :=
  if lead < 0x80 then 1
  else if 0xc2 ≤ lead && lead < 0xe0 then 2
  else if 0xe0 ≤ lead && lead < 0xf0 then 3
  else if 0xf0 ≤ lead && lead < 0xf5 then 4
  else 0

def continuations (lead : Nat) (rest : List Nat) : List Nat :=
  match rest with
  | [] => []
  | b :: more =>
    if maySecond lead b then b :: (more.take (width lead - 2)).takeWhile isContinuation else []

def firstChar (lead : Nat) (rest : List Nat) : Char × Nat :=
  let count := width lead
  if count = 0 then (replacement, 1)
  else if count = 1 then (Char.ofNat lead, 1)
  else
    let tail := continuations lead rest
    if tail.length = count - 1 then
      (Char.ofNat (tail.foldl (fun acc b => acc * 64 + b % 64) (lead % Nat.pow 2 (7 - count))), count)
    else (replacement, 1 + tail.length)

def lossyFrom : Nat → List Nat → List Char
  | n + 1, b :: rest =>
    let (c, used) := firstChar b rest
    c :: lossyFrom n (rest.drop (used - 1))
  | _, _ => []

def decodeLossy (bytes : ByteArray) : String :=
  String.ofList (lossyFrom bytes.size (bytes.toList.map UInt8.toNat))

/-- The bytes of a code point up to 31 bits, by the scheme that UTF-8 restricts. -/
def encodeWide (n : Nat) : List UInt8 :=
  let tail (count : Nat) : List UInt8 :=
    ((List.range count).map fun i => UInt8.ofNat (0x80 + n / Nat.pow 64 i % 64)).reverse
  if n < 0x80 then [UInt8.ofNat n]
  else if n < 0x800 then UInt8.ofNat (0xc0 + n / 64) :: tail 1
  else if n < 0x10000 then UInt8.ofNat (0xe0 + n / 0x1000) :: tail 2
  else if n < 0x200000 then UInt8.ofNat (0xf0 + n / 0x40000) :: tail 3
  else if n < 0x4000000 then UInt8.ofNat (0xf8 + n / 0x1000000) :: tail 4
  else UInt8.ofNat (0xfc + n / 0x40000000) :: tail 5

end BuildVariants.Text
