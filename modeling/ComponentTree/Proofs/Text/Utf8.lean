import ComponentTree.Proofs.Text.CodePoint
import ComponentTree.Text.Utf8
import Mathlib.Data.List.TakeWhile

/-!
# Decoding undoes encoding

What a string is encoded as is decoded to the string (`decode_encode`). A character is encoded as a first byte
and up to three more, and the decoder takes exactly these bytes for the character, whatever follows them
(`exists_decodeFrom_utf8EncodeChar`). There is one lemma for each number of bytes.

A text that is no string has no encoding, and the first halves in it are what is reported (`firstIn_spec`).
-/

namespace ComponentTree.Text.Utf8

theorem toNat_ofNat_of_lt {n : Nat} (h : n < 256) : (UInt8.ofNat n).toNat = n := by
  rw [UInt8.toNat_ofNat']
  exact Nat.mod_eq_of_lt h

/-! ## Continuation bytes -/

variable {extent least greatest n : Nat}

/-- A byte that is in range carries six bits of the code. -/
theorem continuation_last (code : Nat) (hleast : least ≤ n % 64 + 128)
    (hgreatest : n % 64 + 128 ≤ greatest) (rest : List UInt8) :
    continuation code extent least greatest 0 (UInt8.ofNat (n % 64 + 128) :: rest) =
      .ok (code * 64 + n % 64, rest) := by
  rw [continuation, toNat_ofNat_of_lt (by omega)]
  simp only [Nat.add_sub_cancel, Bool.or_eq_true, decide_eq_true_eq]
  rw [if_neg (by omega)]

theorem continuation_more (code more : Nat) (hleast : least ≤ n % 64 + 128)
    (hgreatest : n % 64 + 128 ≤ greatest) (rest : List UInt8) :
    continuation code extent least greatest (more + 1) (UInt8.ofNat (n % 64 + 128) :: rest) =
      continuation (code * 64 + n % 64) (extent + 1) 0x80 0xBF more rest := by
  rw [continuation, toNat_ofNat_of_lt (by omega)]
  simp only [Nat.add_sub_cancel, Bool.or_eq_true, decide_eq_true_eq]
  rw [if_neg (by omega)]

/-! ## Characters -/

/-- A first byte beyond ASCII and the bytes that it calls for are one character. -/
theorem decodeFrom_lead {code byte : Nat} {lead : Lead} {bytes rest : List UInt8} (position : Nat)
    (hbyte : 0x80 ≤ byte) (hlt : byte < 256) (hlead : lead? byte = some lead)
    (h : continuation lead.bits 1 lead.least lead.greatest lead.more bytes = .ok (code, rest))
    (hle : rest.length ≤ bytes.length) :
    decodeFrom position (UInt8.ofNat byte :: bytes) =
      (decodeFrom (position + lead.more + 2) rest).map (Char.ofNat code :: ·) := by
  rw [decodeFrom, toNat_ofNat_of_lt hlt, if_neg (by omega), hlead]
  simp only [h, dif_pos hle]

variable {v : Nat}

theorem decodeFrom_two (position : Nat) (hmin : 0x80 ≤ v) (hmax : v < 0x800) (rest : List UInt8) :
    decodeFrom position (UInt8.ofNat (v / 64 % 32 + 192) :: UInt8.ofNat (v % 64 + 128) :: rest) =
      (decodeFrom (position + 2) rest).map (Char.ofNat v :: ·) := by
  have hbits : v / 64 % 32 + 192 - 0xC0 = v / 64 := by omega
  have hcode : v / 64 * 64 + v % 64 = v := by omega
  have hlead : lead? (v / 64 % 32 + 192) = some ⟨v / 64, 0x80, 0xBF, 0⟩ := by
    rw [lead?, if_neg (by omega), if_pos (by omega), hbits]
  refine decodeFrom_lead position (by omega) (by omega) hlead ?_ (by simp)
  dsimp only
  rw [continuation_last _ (by omega) (by omega), hcode]

theorem decodeFrom_three (position : Nat) (hmin : 0x800 ≤ v) (hmax : v < 0x10000)
    (hhalf : v < 0xD800 ∨ 0xDFFF < v) (rest : List UInt8) :
    decodeFrom position (UInt8.ofNat (v / 4096 % 16 + 224) :: UInt8.ofNat (v / 64 % 64 + 128) ::
        UInt8.ofNat (v % 64 + 128) :: rest) =
      (decodeFrom (position + 3) rest).map (Char.ofNat v :: ·) := by
  have hbits : v / 4096 % 16 + 224 - 0xE0 = v / 4096 := by omega
  have hcode : (v / 4096 * 64 + v / 64 % 64) * 64 + v % 64 = v := by omega
  have hlead : lead? (v / 4096 % 16 + 224) = some ⟨v / 4096,
      if v / 4096 % 16 + 224 = 0xE0 then 0xA0 else 0x80,
      if v / 4096 % 16 + 224 = 0xED then 0x9F else 0xBF, 1⟩ := by
    rw [lead?, if_neg (by omega), if_neg (by omega), if_pos (by omega), hbits]
  refine decodeFrom_lead position (by omega) (by omega) hlead ?_ (by simp; omega)
  dsimp only
  rw [continuation_more _ _ (by split <;> omega) (by split <;> omega),
    continuation_last _ (by omega) (by omega), hcode]

theorem decodeFrom_four (position : Nat) (hmin : 0x10000 ≤ v) (hmax : v < 0x110000)
    (rest : List UInt8) :
    decodeFrom position (UInt8.ofNat (v / 262144 % 8 + 240) :: UInt8.ofNat (v / 4096 % 64 + 128) ::
        UInt8.ofNat (v / 64 % 64 + 128) :: UInt8.ofNat (v % 64 + 128) :: rest) =
      (decodeFrom (position + 4) rest).map (Char.ofNat v :: ·) := by
  have hbits : v / 262144 % 8 + 240 - 0xF0 = v / 262144 := by omega
  have hcode : ((v / 262144 * 64 + v / 4096 % 64) * 64 + v / 64 % 64) * 64 + v % 64 = v := by omega
  have hlead : lead? (v / 262144 % 8 + 240) = some ⟨v / 262144,
      if v / 262144 % 8 + 240 = 0xF0 then 0x90 else 0x80,
      if v / 262144 % 8 + 240 = 0xF4 then 0x8F else 0xBF, 2⟩ := by
    rw [lead?, if_neg (by omega), if_neg (by omega), if_neg (by omega), if_pos (by omega), hbits]
  refine decodeFrom_lead position (by omega) (by omega) hlead ?_ (by simp; omega)
  dsimp only
  rw [continuation_more _ _ (by split <;> omega) (by split <;> omega),
    continuation_more _ _ (by omega) (by omega), continuation_last _ (by omega) (by omega), hcode]

/-- **A character is taken by the bytes that encode it.** -/
theorem exists_decodeFrom_utf8EncodeChar (c : Char) (position : Nat) (rest : List UInt8) :
    ∃ next, decodeFrom position (String.utf8EncodeChar c ++ rest) =
      (decodeFrom next rest).map (c :: ·) := by
  have hchar : Char.ofNat c.val.toNat = c := Char.ofNat_toNat c
  have hvalid : c.val.toNat < 0xD800 ∨ 0xDFFF < c.val.toNat ∧ c.val.toNat < 0x110000 := c.valid
  unfold String.utf8EncodeChar
  dsimp only
  generalize c.val.toNat = v at hchar hvalid
  subst hchar
  split
  · refine ⟨position + 1, ?_⟩
    rw [List.singleton_append, decodeFrom, toNat_ofNat_of_lt (by omega), if_pos (by omega)]
  split
  · exact ⟨_, decodeFrom_two position (by omega) (by omega) rest⟩
  split
  · exact ⟨_, decodeFrom_three position (by omega) (by omega) (by omega) rest⟩
  · exact ⟨_, decodeFrom_four position (by omega) (by omega) rest⟩

/-- **Decoding undoes encoding.** -/
theorem decode_encode (cs : List Char) : decode (encode cs) = .ok cs := by
  have hfrom : ∀ position, decodeFrom position (encode cs) = .ok cs := by
    induction cs with
    | nil =>
      intro position
      show decodeFrom position [] = _
      rw [decodeFrom]
    | cons c cs ih =>
      intro position
      obtain ⟨next, h⟩ := exists_decodeFrom_utf8EncodeChar c position (encode cs)
      show decodeFrom position (String.utf8EncodeChar c ++ encode cs) = _
      rw [h, ih]
      rfl
  exact hfrom 0

/-! ## Texts -/

theorem encodeText_ofString (text : String) : encodeText text = .ok (encode text.toList) := by
  rw [encodeText, Points.string?_ofString]

theorem encodeText_broken {text : Points} (h : text.string? = none) :
    encodeText text = .error (.firstIn text) := by
  rw [encodeText, h]

/-- **The halves for which a text is refused are the first ones in it**, as many as stand side by side. -/
theorem firstIn_spec {text : Points} (h : text.string? = none) :
    ∃ before first more rest, text = before ++ (first :: more ++ rest) ∧
      (∀ p ∈ before, p.isHalf = false) ∧ (∀ p ∈ first :: more, p.isHalf = true) ∧
      (∀ p ∈ rest.head?, p.isHalf = false) ∧
      Halves.firstIn text = ⟨first, before.length, (first :: more).length⟩ := by
  obtain ⟨n, hn⟩ := Points.string?_eq_none_iff.mp h
  have hsplit : text.takeWhile (fun p => !p.isHalf) ++ text.dropWhile (fun p => !p.isHalf) = text :=
    List.takeWhile_append_dropWhile
  have hbefore : ∀ p ∈ text.takeWhile fun p => !p.isHalf, p.isHalf = false :=
    fun p hp => by simpa using List.mem_takeWhile_imp hp
  cases htail : text.dropWhile fun p => !p.isHalf with
  | nil =>
    rw [htail, List.append_nil] at hsplit
    exact absurd (hbefore _ (hsplit ▸ hn)) (by simp [CodePoint.isHalf])
  | cons first tail =>
    have hfirst : first.isHalf = true := by
      have hhead := List.head?_dropWhile_not (fun p : CodePoint => !p.isHalf) text
      simpa [htail] using hhead
    have hrun : (first :: tail).takeWhile CodePoint.isHalf = first :: tail.takeWhile CodePoint.isHalf :=
      List.takeWhile_cons_of_pos hfirst
    refine ⟨_, first, tail.takeWhile CodePoint.isHalf, tail.dropWhile CodePoint.isHalf, ?_, hbefore, ?_,
      ?_, ?_⟩
    · rw [List.cons_append, List.takeWhile_append_dropWhile, ← htail, hsplit]
    · intro p hp
      rw [← hrun] at hp
      exact List.mem_takeWhile_imp hp
    · intro p hp
      have hhead := List.head?_dropWhile_not CodePoint.isHalf tail
      rw [Option.mem_def.mp hp] at hhead
      simpa using hhead
    · rw [Halves.firstIn, htail, hrun]
      rfl

end ComponentTree.Text.Utf8
