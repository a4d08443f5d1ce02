import CallManual.Text.Basic

/-!
# UTF-8

Bytes are read as a sequence of scalar values and of ill-formed parts. A part is the longest start
of a well-formed sequence that cannot be completed, or else a single byte.
-/
namespace CallManual.Text

/-- How many bytes follow a leading byte, and the range of the first of them. -/
def continuation? (b : UInt8) : Option (Nat × UInt8 × UInt8) :=
  if 0xC2 ≤ b && b ≤ 0xDF then some (1, 0x80, 0xBF)
  else if b = 0xE0 then some (2, 0xA0, 0xBF)
  else if b = 0xED then some (2, 0x80, 0x9F)
  else if 0xE1 ≤ b && b ≤ 0xEF then some (2, 0x80, 0xBF)
  else if b = 0xF0 then some (3, 0x90, 0xBF)
  else if b = 0xF4 then some (3, 0x80, 0x8F)
  else if 0xF1 ≤ b && b ≤ 0xF3 then some (3, 0x80, 0xBF)
  else none

def isContinuation (b : UInt8) : Bool := 0x80 ≤ b && b ≤ 0xBF

def low (b : UInt8) : Nat := b.toNat % 64

/-- The scalar values of a byte sequence, `none` for each ill-formed part. -/
def scalars : List UInt8 → List (Option Char)
  | [] => []
  | a :: t =>
    if a < 0x80 then some (Char.ofNat a.toNat) :: scalars t
    else
      match continuation? a with
      | none => none :: scalars t
      | some (n, lo, hi) =>
        match t with
        | [] => [none]
        | b :: u =>
          if b < lo || hi < b then none :: scalars (b :: u)
          else if n = 1 then some (Char.ofNat (a.toNat % 32 * 64 + low b)) :: scalars u
          else
            match u with
            | [] => [none]
            | c :: v =>
              if !isContinuation c then none :: scalars (c :: v)
              else if n = 2 then
                some (Char.ofNat ((a.toNat % 16 * 64 + low b) * 64 + low c)) :: scalars v
              else
                match v with
                | [] => [none]
                | d :: w =>
                  if !isContinuation d then none :: scalars (d :: w)
                  else
                    some (Char.ofNat (((a.toNat % 8 * 64 + low b) * 64 + low c) * 64 + low d)) ::
                      scalars w

/-- The text of a well-formed byte sequence. -/
def ofUtf8? (bytes : List UInt8) : Option Text := (scalars bytes).mapM id

/-- The text of a byte sequence with a replacement character for each ill-formed part. -/
def ofUtf8Lossy (bytes : List UInt8) : Text := (scalars bytes).map fun c => c.getD '\ufffd'

def encodeChar (c : Char) : List UInt8 :=
  let n := c.toNat
  if n < 0x80 then [n.toUInt8]
  else if n < 0x800 then [(0xC0 + n / 64).toUInt8, (0x80 + n % 64).toUInt8]
  else if n < 0x10000 then
    [(0xE0 + n / 4096).toUInt8, (0x80 + n / 64 % 64).toUInt8, (0x80 + n % 64).toUInt8]
  else
    [(0xF0 + n / 262144).toUInt8, (0x80 + n / 4096 % 64).toUInt8, (0x80 + n / 64 % 64).toUInt8,
      (0x80 + n % 64).toUInt8]

def toUtf8 (t : Text) : List UInt8 := t.flatMap encodeChar

/-- The number of bytes of a text. -/
def byteLength (t : Text) : Nat := t.foldl (fun n c => n + c.utf8Size) 0

end CallManual.Text
