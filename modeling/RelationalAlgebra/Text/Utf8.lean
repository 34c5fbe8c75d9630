/-!
# Reading UTF-8

Bytes are text when they are a sequence of well-formed UTF-8 characters: shortest forms only, no
surrogates, nothing above the last code point. The first fault is reported with the index of the
character it lies in and with the number of bytes that could still have begun a character.
-/
namespace RelationalAlgebra.Utf8

inductive Fault where
  | invalid (index length : Nat)
  | incomplete (index : Nat)
  deriving DecidableEq, Repr

def Fault.message : Fault → String
  | invalid index length =>
    "invalid utf-8 sequence of " ++ toString length ++ " bytes from index " ++ toString index
  | incomplete index => "incomplete utf-8 byte sequence from index " ++ toString index

/-- A byte that continues a character. -/
def isContinuation (b : UInt8) : Bool := 0x80 ≤ b && b ≤ 0xbf

/-- The second bytes that may follow the first byte of a character of three bytes. -/
def isSecondOfThree (first b : UInt8) : Bool :=
  if first = 0xe0 then 0xa0 ≤ b && b ≤ 0xbf
  else if first = 0xed then 0x80 ≤ b && b ≤ 0x9f
  else isContinuation b

def isSecondOfFour (first b : UInt8) : Bool :=
  if first = 0xf0 then 0x90 ≤ b && b ≤ 0xbf
  else if first = 0xf4 then 0x80 ≤ b && b ≤ 0x8f
  else isContinuation b

/-- The code point whose bits are the low bits of `first` followed by six of each other byte. -/
def assemble (first : UInt8) (mask : UInt8) (others : List UInt8) : Char :=
  Char.ofNat <| others.foldl (fun n b => n * 64 + (b &&& 0x3f).toNat) (first &&& mask).toNat

/-- Reads the characters of `bytes`, which start at `index`. -/
def decodeFrom (index : Nat) : List UInt8 → Except Fault (List Char)
  | [] => .ok []
  | a :: rest =>
    if a < 0x80 then (Char.ofNat a.toNat :: ·) <$> decodeFrom (index + 1) rest
    else if 0xc2 ≤ a && a ≤ 0xdf then
      match rest with
      | [] => .error (.incomplete index)
      | b :: rest =>
        if isContinuation b then (assemble a 0x1f [b] :: ·) <$> decodeFrom (index + 2) rest
        else .error (.invalid index 1)
    else if 0xe0 ≤ a && a ≤ 0xef then
      match rest with
      | [] => .error (.incomplete index)
      | b :: rest =>
        if !isSecondOfThree a b then .error (.invalid index 1) else
        match rest with
        | [] => .error (.incomplete index)
        | c :: rest =>
          if isContinuation c then (assemble a 0x0f [b, c] :: ·) <$> decodeFrom (index + 3) rest
          else .error (.invalid index 2)
    else if 0xf0 ≤ a && a ≤ 0xf4 then
      match rest with
      | [] => .error (.incomplete index)
      | b :: rest =>
        if !isSecondOfFour a b then .error (.invalid index 1) else
        match rest with
        | [] => .error (.incomplete index)
        | c :: rest =>
          if !isContinuation c then .error (.invalid index 2) else
          match rest with
          | [] => .error (.incomplete index)
          | d :: rest =>
            if isContinuation d then
              (assemble a 0x07 [b, c, d] :: ·) <$> decodeFrom (index + 4) rest
            else .error (.invalid index 3)
    else .error (.invalid index 1)

/-- The text that the bytes spell. -/
def decode (bytes : List UInt8) : Except Fault String := String.ofList <$> decodeFrom 0 bytes

end RelationalAlgebra.Utf8
