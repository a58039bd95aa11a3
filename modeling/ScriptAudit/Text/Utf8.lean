import ScriptAudit.Text.Basic

/-!
# Text as bytes

A text is stored as UTF-8. `Utf8.decode` refuses bytes that are no text and says where the first
fault lies; `Utf8.decodeLeniently` puts one replacement character in place of every fault. A fault
covers the longest run of bytes that could have begun a character.
-/

namespace ScriptAudit

/-- A sequence of bytes. -/
abbrev Bytes := List UInt8

namespace Utf8

/-- The ways in which bytes fail to be a character. -/
inductive Defect
  /-- No character begins with this byte. -/
  | start
  /-- The character under way cannot go on with the next byte. -/
  | continuation
  /-- The bytes end inside a character. -/
  | truncated

/-- What a defect is called. -/
def Defect.describe : Defect → Text
  | start => "invalid start byte"
  | continuation => "invalid continuation byte"
  | truncated => "unexpected end of data"

/-- A defect, the position and the number of the bytes concerned, and the first of them. -/
structure Malformed where
  position : Nat
  size : Nat
  byte : UInt8
  defect : Defect

/-- Whether a byte continues a character. -/
def isContinuation (b : UInt8) : Bool := 0x80 ≤ b && b < 0xc0

/-- Whether `b` can be the second byte of a character that begins with `lead`. -/
def mayFollow (lead b : UInt8) : Bool :=
  isContinuation b &&
    (lead != 0xe0 || b ≥ 0xa0) && (lead != 0xed || b < 0xa0) &&
    (lead != 0xf0 || b ≥ 0x90) && (lead != 0xf4 || b < 0x90)

/-- The six bits that a continuation byte carries. -/
def payload (b : UInt8) : Nat := b.toNat % 64

/-- What the bytes begin with: a character or a defect, and the number of bytes that it covers. -/
def head : UInt8 → Bytes → (Char ⊕ Defect) × Nat
  | a, rest =>
    if a < 0x80 then (.inl (Char.ofNat a.toNat), 1)
    else if a < 0xc2 then (.inr .start, 1)
    else if a < 0xe0 then
      match rest with
      | [] => (.inr .truncated, 1)
      | b :: _ =>
        if isContinuation b then (.inl (Char.ofNat (a.toNat % 32 * 64 + payload b)), 2)
        else (.inr .continuation, 1)
    else if a < 0xf0 then
      match rest with
      | [] => (.inr .truncated, 1)
      | b :: rest =>
        if !mayFollow a b then (.inr .continuation, 1)
        else
          match rest with
          | [] => (.inr .truncated, 2)
          | c :: _ =>
            if isContinuation c then
              (.inl (Char.ofNat ((a.toNat % 16 * 64 + payload b) * 64 + payload c)), 3)
            else (.inr .continuation, 2)
    else if a < 0xf5 then
      match rest with
      | [] => (.inr .truncated, 1)
      | b :: rest =>
        if !mayFollow a b then (.inr .continuation, 1)
        else
          match rest with
          | [] => (.inr .truncated, 2)
          | c :: rest =>
            if !isContinuation c then (.inr .continuation, 2)
            else
              match rest with
              | [] => (.inr .truncated, 3)
              | d :: _ =>
                if isContinuation d then
                  (.inl (Char.ofNat
                    (((a.toNat % 8 * 64 + payload b) * 64 + payload c) * 64 + payload d)), 4)
                else (.inr .continuation, 3)
    else (.inr .start, 1)

/-- The characters and defects in order; `skip` bytes belong to the last one. -/
def pieces : (position skip : Nat) → Bytes → List (Char ⊕ Malformed)
  | _, _, [] => []
  | p, n + 1, _ :: bs => pieces (p + 1) n bs
  | p, 0, b :: bs =>
    match head b bs with
    | (.inl c, n) => .inl c :: pieces (p + 1) (n - 1) bs
    | (.inr d, n) => .inr ⟨p, n, b, d⟩ :: pieces (p + 1) (n - 1) bs

/-- The text that the bytes stand for, or their first defect. -/
def decode (bs : Bytes) : Except Malformed Text :=
  (pieces 0 0 bs).mapM fun
    | .inl c => .ok c
    | .inr m => .error m

/-- The text that the bytes stand for, with a replacement character for every defect. -/
def decodeLeniently (bs : Bytes) : Text :=
  (pieces 0 0 bs).map fun
    | .inl c => c
    | .inr _ => '\ufffd'

/-- The bytes that stand for a text. -/
def encode (t : Text) : Bytes := t.flatMap String.utf8EncodeChar

/-- What is said about bytes that are no text. -/
def Malformed.message (m : Malformed) : Text :=
  if m.size = 1 then
    "'utf-8' codec can't decode byte 0x" ++ hexByte m.byte ++ " in position " ++
      Text.ofNat m.position ++ ": " ++ m.defect.describe
  else
    "'utf-8' codec can't decode bytes in position " ++ Text.ofNat m.position ++ "-" ++
      Text.ofNat (m.position + m.size - 1) ++ ": " ++ m.defect.describe
where
  /-- The two hexadecimal digits of a byte. -/
  hexByte (b : UInt8) : Text :=
    [Nat.digitChar (b.toNat / 16), Nat.digitChar (b.toNat % 16)]

end Utf8

end ScriptAudit
