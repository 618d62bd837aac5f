import NotebookPages.Text.Basic

/-!
Texts as bytes. Reading refuses every sequence that is not the encoding of a text: overlong forms,
surrogates, values past the last code point and cut-off characters.
-/

namespace NotebookPages

abbrev Bytes := List UInt8

namespace Text

def utf8Length : Text → Nat
  | [] => 0
  | c :: rest => c.utf8Size + utf8Length rest

theorem utf8Length_append (a b : Text) : utf8Length (a ++ b) = utf8Length a + utf8Length b := by
  induction a with
  | nil => exact (Nat.zero_add _).symm
  | cons c a ih => rw [List.cons_append, utf8Length, utf8Length, ih, Nat.add_assoc]

def encode (t : Text) : Bytes := t.flatMap String.utf8EncodeChar

private def continuation? (b : UInt8) : Option Nat :=
  if 0x80 ≤ b && b < 0xC0 then some (b.toNat - 0x80) else none

/-- The character of a code point that needs at least the length it was written in. -/
private def scalar? (least n : Nat) : Option Char :=
  if h : n.isValidChar then if least ≤ n then some (Char.ofNatAux n h) else none else none

/-- The first character of a byte sequence and the number of further bytes it takes. -/
def firstChar? (a : UInt8) (rest : Bytes) : Option (Char × Nat) :=
  if a < 0x80 then some (Char.ofNat a.toNat, 0)
  else if 0xC2 ≤ a && a < 0xE0 then
    match rest with
    | b :: _ => do
      let c ← scalar? 0x80 ((a.toNat - 0xC0) * 64 + (← continuation? b))
      return (c, 1)
    | _ => none
  else if 0xE0 ≤ a && a < 0xF0 then
    match rest with
    | b :: c :: _ => do
      let c ← scalar? 0x800
        (((a.toNat - 0xE0) * 64 + (← continuation? b)) * 64 + (← continuation? c))
      return (c, 2)
    | _ => none
  else if 0xF0 ≤ a && a < 0xF5 then
    match rest with
    | b :: c :: d :: _ => do
      let c ← scalar? 0x10000
        ((((a.toNat - 0xF0) * 64 + (← continuation? b)) * 64 + (← continuation? c)) * 64
          + (← continuation? d))
      return (c, 3)
    | _ => none
  else none

/-- Decode after skipping the bytes of a character already read; `done` holds the characters so far
in reverse. -/
def decodeFrom (done : Text) (skip : Nat) : Bytes → Option Text
  | [] => some done.reverse
  | b :: rest =>
    match skip with
    | n + 1 => decodeFrom done n rest
    | 0 =>
      match firstChar? b rest with
      | some (c, more) => decodeFrom (c :: done) more rest
      | none => none

def decode? (bytes : Bytes) : Option Text := decodeFrom [] 0 bytes

private theorem continuation?_ofNat {n : Nat} (small : n < 64) : continuation? (UInt8.ofNat (n + 128)) = some n := by
  have code : (UInt8.ofNat (n + 128)).toNat = n + 128 := by
    rw [UInt8.toNat_ofNat']
    omega
  simp only [continuation?, UInt8.le_iff_toNat_le, UInt8.lt_iff_toNat_lt, code]
  simp [show n + 128 < 192 by omega]

private theorem scalar?_toNat {c : Char} {least : Nat} (long : least ≤ c.toNat) : scalar? least c.toNat = some c := by
  have valid : c.toNat.isValidChar := c.valid
  rw [scalar?, dif_pos valid, if_pos long]
  rfl

private theorem toNat_lead {n : Nat} (small : n < 256) : (UInt8.ofNat n).toNat = n := by
  rw [UInt8.toNat_ofNat']
  omega

private theorem map_pair_eq_bind (c : Option Char) (more : Nat) : c.map (·, more) = c.bind fun c => some (c, more) := Option.map_eq_bind

private theorem firstChar?_two {a b n : Nat} (least : 2 ≤ a) (most : a < 32) (first : b < 64) (code : a * 64 + b = n)
    (rest : Bytes) : firstChar? (UInt8.ofNat (a + 192)) (UInt8.ofNat (b + 128) :: rest) = (scalar? 0x80 n).map (·, 1) := by
  have lead := toNat_lead (show a + 192 < 256 by omega)
  have follows := continuation?_ofNat first
  generalize UInt8.ofNat (a + 192) = x at lead ⊢
  generalize UInt8.ofNat (b + 128) = y at follows ⊢
  have long : ¬ a + 192 < 128 := by omega
  have short : 194 ≤ a + 192 ∧ a + 192 < 224 := by omega
  have part : a + 192 - 192 = a := by omega
  simp [firstChar?, UInt8.lt_iff_toNat_lt, UInt8.le_iff_toNat_le, lead, follows, long, short, part, code, map_pair_eq_bind]

private theorem firstChar?_three {a b c n : Nat} (most : a < 16) (first : b < 64) (second : c < 64)
    (code : (a * 64 + b) * 64 + c = n) (rest : Bytes) : firstChar? (UInt8.ofNat (a + 224))
      (UInt8.ofNat (b + 128) :: UInt8.ofNat (c + 128) :: rest) = (scalar? 0x800 n).map (·, 2) := by
  have lead := toNat_lead (show a + 224 < 256 by omega)
  have follows := continuation?_ofNat first
  have follows' := continuation?_ofNat second
  generalize UInt8.ofNat (a + 224) = x at lead ⊢
  generalize UInt8.ofNat (b + 128) = y at follows ⊢
  generalize UInt8.ofNat (c + 128) = z at follows' ⊢
  have long : ¬ a + 224 < 128 ∧ ¬ a + 224 < 224 := by omega
  have short : 224 ≤ a + 224 ∧ a + 224 < 240 := by omega
  have part : a + 224 - 224 = a := by omega
  simp [firstChar?, UInt8.lt_iff_toNat_lt, UInt8.le_iff_toNat_le, lead, follows, follows', long, short, part, code,
    map_pair_eq_bind]

private theorem firstChar?_four {a b c d n : Nat} (most : a < 5) (first : b < 64) (second : c < 64) (third : d < 64)
    (code : ((a * 64 + b) * 64 + c) * 64 + d = n) (rest : Bytes) : firstChar? (UInt8.ofNat (a + 240))
      (UInt8.ofNat (b + 128) :: UInt8.ofNat (c + 128) :: UInt8.ofNat (d + 128) :: rest) = (scalar? 0x10000 n).map (·, 3) := by
  have lead := toNat_lead (show a + 240 < 256 by omega)
  have follows := continuation?_ofNat first
  have follows' := continuation?_ofNat second
  have follows'' := continuation?_ofNat third
  generalize UInt8.ofNat (a + 240) = x at lead ⊢
  generalize UInt8.ofNat (b + 128) = y at follows ⊢
  generalize UInt8.ofNat (c + 128) = z at follows' ⊢
  generalize UInt8.ofNat (d + 128) = w at follows'' ⊢
  have long : ¬ a + 240 < 128 ∧ ¬ a + 240 < 224 ∧ ¬ a + 240 < 240 := by omega
  have short : 240 ≤ a + 240 ∧ a + 240 < 245 := by omega
  have part : a + 240 - 240 = a := by omega
  simp [firstChar?, UInt8.lt_iff_toNat_lt, UInt8.le_iff_toNat_le, lead, follows, follows', follows'', long, short, part, code,
    map_pair_eq_bind]

/-- The encoding of a character is read as that character, whatever follows. -/
theorem firstChar?_encode (c : Char) : ∃ a more, String.utf8EncodeChar c = a :: more ∧
    ∀ rest, firstChar? a (more ++ rest) = some (c, more.length) := by
  have bound : c.toNat < 0x110000 := by
    rcases c.valid with low | high
    · exact Nat.lt_trans low (by decide)
    · exact high.2
  have same : c.val.toNat = c.toNat := rfl
  unfold String.utf8EncodeChar
  simp only [same]
  split
  next one =>
    refine ⟨_, [], rfl, fun rest => ?_⟩
    simp [firstChar?, UInt8.lt_iff_toNat_lt, toNat_lead (show c.toNat < 256 by omega), show c.toNat < 128 by omega]
  next =>
    split
    next two =>
      refine ⟨_, _, rfl, fun rest => ?_⟩
      rw [List.cons_append, firstChar?_two (n := c.toNat) (by omega) (by omega) (by omega) (by omega), scalar?_toNat (by omega)]
      rfl
    next =>
      split
      next three =>
        refine ⟨_, _, rfl, fun rest => ?_⟩
        rw [List.cons_append, List.cons_append, firstChar?_three (n := c.toNat) (by omega) (by omega) (by omega) (by omega),
          scalar?_toNat (by omega)]
        rfl
      next four =>
        refine ⟨_, _, rfl, fun rest => ?_⟩
        rw [List.cons_append, List.cons_append, List.cons_append,
          firstChar?_four (n := c.toNat) (by omega) (by omega) (by omega) (by omega) (by omega), scalar?_toNat (by omega)]
        rfl

theorem decodeFrom_skip (done : Text) (skipped rest : Bytes) :
    decodeFrom done skipped.length (skipped ++ rest) = decodeFrom done 0 rest := by
  induction skipped with
  | nil => rfl
  | cons b skipped ih => exact ih

theorem decodeFrom_encode (done t : Text) : decodeFrom done 0 (encode t) = some (done.reverse ++ t) := by
  induction t generalizing done with
  | nil => simp [encode, decodeFrom]
  | cons c t ih =>
    obtain ⟨a, more, whole, read⟩ := firstChar?_encode c
    rw [encode, List.flatMap_cons, whole, List.cons_append, ← encode, decodeFrom, read]
    dsimp only
    rw [decodeFrom_skip, ih]
    simp

theorem decode?_encode (t : Text) : decode? (encode t) = some t := decodeFrom_encode [] t

end Text
end NotebookPages
