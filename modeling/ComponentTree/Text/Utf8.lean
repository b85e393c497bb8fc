import ComponentTree.Decimal.Basic
import ComponentTree.Text.CodePoint
import ComponentTree.Text.Quoted

/-!
# Strict UTF-8

Every string has one encoding, and decoding takes nothing else: overlong forms, halves of pairs, codes
beyond the last one and broken off sequences are refused at the byte where they start. A text with halves
of characters in it has no encoding.
-/

namespace ComponentTree.Text.Utf8

def encode (cs : List Char) : List UInt8 := cs.flatMap String.utf8EncodeChar

/-- Halves that stand side by side in a text: the first one, its position, and how many there are. -/
structure Halves where
  first : CodePoint
  position : Nat
  extent : Nat
  deriving DecidableEq, Repr

/-- The first halves in a text. -/
def Halves.firstIn (text : Points) : Halves :=
  let before := text.takeWhile fun p => !p.isHalf
  let halves := (text.dropWhile fun p => !p.isHalf).takeWhile CodePoint.isHalf
  ⟨halves.headD ' ', before.length, halves.length⟩

def Halves.message (halves : Halves) : String :=
  let place := fun (n : Nat) => String.ofList (integerText n)
  let what :=
    if halves.extent ≤ 1 then
      "character " ++ String.ofList (quoted [halves.first]) ++ " in position " ++ place halves.position
    else
      "characters in position " ++ place halves.position ++ "-"
        ++ place (halves.position + halves.extent - 1)
  "'utf-8' codec can't encode " ++ what ++ ": surrogates not allowed"

/-- The encoding of a text, if no halves are in it. -/
def encodeText (text : Points) : Except Halves (List UInt8) :=
  match text.string? with
  | some s => .ok (encode s.toList)
  | none => .error (.firstIn text)

/-- Why bytes are refused. -/
inductive Reason where
  | invalidStart
  | invalidContinuation
  | unexpectedEnd
  deriving DecidableEq, Repr

def Reason.message : Reason → String
  | .invalidStart => "invalid start byte"
  | .invalidContinuation => "invalid continuation byte"
  | .unexpectedEnd => "unexpected end of data"

/-- Refused bytes: the first one, its position, and how many belong to the refused sequence. -/
structure Malformed where
  reason : Reason
  byte : UInt8
  position : Nat
  extent : Nat
  deriving DecidableEq, Repr

def Malformed.message (m : Malformed) : String :=
  let place := fun (n : Nat) => String.ofList (integerText n)
  let what :=
    if m.extent ≤ 1 then
      "byte 0x" ++ String.ofList (hexDigits 2 m.byte.toNat) ++ " in position " ++ place m.position
    else
      "bytes in position " ++ place m.position ++ "-" ++ place (m.position + m.extent - 1)
  "'utf-8' codec can't decode " ++ what ++ ": " ++ m.reason.message

/-- What a first byte calls for: its own bits, the least and greatest second byte, and how many
bytes follow the second one. -/
structure Lead where
  bits : Nat
  least : Nat
  greatest : Nat
  more : Nat

/-- What a first byte beyond ASCII calls for, if a sequence can start with it. -/
def lead? (byte : Nat) : Option Lead :=
  if byte < 0xC2 then none
  else if byte < 0xE0 then some ⟨byte - 0xC0, 0x80, 0xBF, 0⟩
  else if byte < 0xF0 then
    some ⟨byte - 0xE0, if byte = 0xE0 then 0xA0 else 0x80, if byte = 0xED then 0x9F else 0xBF, 1⟩
  else if byte < 0xF5 then
    some ⟨byte - 0xF0, if byte = 0xF0 then 0x90 else 0x80, if byte = 0xF4 then 0x8F else 0xBF, 2⟩
  else none

/-- Reads continuation bytes: the first of them between `least` and `greatest`, and `more` after it.
A refusal tells how many bytes of the sequence were read. -/
def continuation (code extent least greatest : Nat) :
    Nat → List UInt8 → Except (Reason × Nat) (Nat × List UInt8)
  | _, [] => .error (.unexpectedEnd, extent)
  | more, b :: rest =>
    if b.toNat < least || greatest < b.toNat then .error (.invalidContinuation, extent)
    else
      let code := code * 64 + (b.toNat - 0x80)
      match more with
      | 0 => .ok (code, rest)
      | more + 1 => continuation code (extent + 1) 0x80 0xBF more rest

/-- The text of bytes that start at a position. -/
def decodeFrom (position : Nat) (bytes : List UInt8) : Except Malformed (List Char) :=
  match bytes with
  | [] => .ok []
  | b :: rest =>
    if b.toNat < 0x80 then (decodeFrom (position + 1) rest).map (Char.ofNat b.toNat :: ·)
    else
      match lead? b.toNat with
      | none => .error ⟨.invalidStart, b, position, 1⟩
      | some lead =>
        match continuation lead.bits 1 lead.least lead.greatest lead.more rest with
        | .error (reason, extent) => .error ⟨reason, b, position, extent⟩
        | .ok (code, after) =>
          if _h : after.length ≤ rest.length then
            (decodeFrom (position + lead.more + 2) after).map (Char.ofNat code :: ·)
          else .error ⟨.invalidStart, b, position, 1⟩
termination_by bytes.length

def decode (bytes : List UInt8) : Except Malformed (List Char) := decodeFrom 0 bytes

end ComponentTree.Text.Utf8
