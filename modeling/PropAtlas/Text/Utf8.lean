/-!
UTF-8: the bytes of a text, and the text of bytes. Decoding is strict: it refuses overlong forms,
encoded surrogates, values above U+10FFFF and sequences that break off, and says what is wrong with
the first byte that cannot be read.
-/

namespace PropAtlas.Utf8

inductive Fault where
  /-- A byte that starts no character. -/
  | start
  /-- A byte that does not continue the character before it. -/
  | continuation
  /-- The bytes end inside a character. -/
  | truncated
  deriving DecidableEq, Repr

def Fault.message : Fault → String
  | .start => "invalid start byte"
  | .continuation => "invalid continuation byte"
  | .truncated => "unexpected end of data"

def encodeChar (c : Char) : List UInt8 :=
  let n := c.toNat
  if n < 0x80 then [n.toUInt8]
  else if n < 0x800 then [(0xC0 + n / 0x40).toUInt8, (0x80 + n % 0x40).toUInt8]
  else if n < 0x10000 then
    [(0xE0 + n / 0x1000).toUInt8, (0x80 + n / 0x40 % 0x40).toUInt8, (0x80 + n % 0x40).toUInt8]
  else
    [(0xF0 + n / 0x40000).toUInt8, (0x80 + n / 0x1000 % 0x40).toUInt8,
      (0x80 + n / 0x40 % 0x40).toUInt8, (0x80 + n % 0x40).toUInt8]

def encode (cs : List Char) : List UInt8 := cs.flatMap encodeChar

def isContinuation (b : UInt8) : Bool := 0x80 ≤ b && b < 0xC0

/-- Whether `b` may follow the first byte `a` of a character of three or four bytes. -/
def isSecond (a b : UInt8) : Bool :=
  isContinuation b && !(a == 0xE0 && b < 0xA0) && !(a == 0xED && 0xA0 ≤ b) &&
    !(a == 0xF0 && b < 0x90) && !(a == 0xF4 && 0x90 ≤ b)

/-- The value of the low six bits of a continuation byte. -/
def low (b : UInt8) : Nat := b.toNat % 0x40

def decode : List UInt8 → Except Fault (List Char)
  | [] => .ok []
  | a :: rest =>
    if a < 0x80 then (Char.ofNat a.toNat :: ·) <$> decode rest
    else if a < 0xC2 || 0xF5 ≤ a then .error .start
    else if a < 0xE0 then
      match rest with
      | [] => .error .truncated
      | b :: rest =>
        if isContinuation b then
          (Char.ofNat (a.toNat % 0x20 * 0x40 + low b) :: ·) <$> decode rest
        else .error .continuation
    else if a < 0xF0 then
      match rest with
      | [] => .error .truncated
      | [b] => if isSecond a b then .error .truncated else .error .continuation
      | b :: c :: rest =>
        if isSecond a b && isContinuation c then
          (Char.ofNat (a.toNat % 0x10 * 0x1000 + low b * 0x40 + low c) :: ·) <$> decode rest
        else .error .continuation
    else
      match rest with
      | [] => .error .truncated
      | [b] => if isSecond a b then .error .truncated else .error .continuation
      | [b, c] =>
        if isSecond a b && isContinuation c then .error .truncated else .error .continuation
      | b :: c :: d :: rest =>
        if isSecond a b && isContinuation c && isContinuation d then
          (Char.ofNat (a.toNat % 0x08 * 0x40000 + low b * 0x1000 + low c * 0x40 + low d) :: ·) <$>
            decode rest
        else .error .continuation

end PropAtlas.Utf8
