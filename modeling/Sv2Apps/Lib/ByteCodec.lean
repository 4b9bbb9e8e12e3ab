/-
  Lib/ByteCodec.lean
  ==================
  **Self-delimiting byte codecs** — a `Codec α` is an encoder together with a
  decoder that returns the value and the bytes after it, and the two laws that
  connect them: what is encoded decodes to itself whatever follows, and the only
  bytes that decode to a value are its encoding (so the format is canonical).

  Little-endian integers, the variable-length integer `compactSize`, length-prefixed
  bytes and counted lists are built here once; `Codec.map`, `Codec.pair` and
  `Codec.dep` assemble records from them.
-/
import Mathlib.Algebra.Group.Nat.Defs
import Mathlib.Data.List.Basic
import Mathlib.Tactic.Common

/-! ## Little-endian integers -/

namespace ByteCodec

/-- The `w` low bytes of `n`, least significant first. -/
def leBytes : Nat → Nat → List UInt8
  | 0, _ => []
  | w + 1, n => UInt8.ofNat n :: leBytes w (n / 256)

/-- The number whose little-endian bytes are given. -/
def ofLe : List UInt8 → Nat
  | [] => 0
  | b :: bs => b.toNat + 256 * ofLe bs

@[simp] theorem length_leBytes (w n : Nat) : (leBytes w n).length = w := by
  induction w generalizing n with
  | zero => rfl
  | succ w ih => simp [leBytes, ih]

theorem ofLe_lt (bs : List UInt8) : ofLe bs < 256 ^ bs.length := by
  induction bs with
  | nil => simp [ofLe]
  | cons b bs ih =>
    have hb : b.toNat < 256 := b.toNat_lt
    simp only [ofLe, List.length_cons, Nat.pow_succ]
    omega

theorem ofLe_leBytes {w n : Nat} (h : n < 256 ^ w) : ofLe (leBytes w n) = n := by
  induction w generalizing n with
  | zero => simp at h; simp [leBytes, ofLe, h]
  | succ w ih =>
    have hdiv : n / 256 < 256 ^ w := by
      rw [Nat.pow_succ] at h
      exact Nat.div_lt_of_lt_mul (by omega)
    simp only [leBytes, ofLe, ih hdiv, UInt8.toNat_ofNat']
    omega

theorem leBytes_ofLe (bs : List UInt8) : leBytes bs.length (ofLe bs) = bs := by
  induction bs with
  | nil => rfl
  | cons b bs ih =>
    have hb : b.toNat < 256 := b.toNat_lt
    have hdiv : (b.toNat + 256 * ofLe bs) / 256 = ofLe bs := by omega
    have hbyte : UInt8.ofNat (b.toNat + 256 * ofLe bs) = b := by
      apply UInt8.toNat_inj.mp
      rw [UInt8.toNat_ofNat']
      omega
    simp only [List.length_cons, leBytes, ofLe, hdiv, ih, hbyte]

end ByteCodec

/-! ## Codecs and their combinators -/

/-- An encoder and a decoder of one format.  `Valid` is what the format can carry. -/
structure Codec (α : Type) where
  Valid : α → Prop
  enc : α → List UInt8
  dec : List UInt8 → Option (α × List UInt8)
  dec_enc : ∀ a rest, Valid a → dec (enc a ++ rest) = some (a, rest)
  enc_dec : ∀ bs a rest, dec bs = some (a, rest) → Valid a ∧ bs = enc a ++ rest

namespace Codec

open ByteCodec

variable {α β : Type}

/-- Exactly `n` bytes. -/
def bytes (n : Nat) : Codec (List UInt8) where
  Valid b := b.length = n
  enc b := b
  dec bs := if n ≤ bs.length then some (bs.take n, bs.drop n) else none
  dec_enc := by
    intro b rest h
    subst h
    simp
  enc_dec := by
    intro bs a rest h
    split at h
    next hn =>
      cases h
      exact ⟨by simp [hn], (List.take_append_drop n bs).symm⟩
    next => cases h

/-- A format re-read through a conversion of its values. -/
def map (c : Codec α) (f : α → β) (g : β → α) (hgf : ∀ a, c.Valid a → g (f a) = a) :
    Codec β where
  Valid b := c.Valid (g b) ∧ f (g b) = b
  enc b := c.enc (g b)
  dec bs := (c.dec bs).map fun p => (f p.1, p.2)
  dec_enc := by
    intro b rest h
    simp [c.dec_enc (g b) rest h.1, h.2]
  enc_dec := by
    intro bs b rest h
    obtain ⟨⟨a, r⟩, ha, hab⟩ := Option.map_eq_some_iff.mp h
    cases hab
    obtain ⟨hv, hbs⟩ := c.enc_dec bs a r ha
    rw [hgf a hv]
    exact ⟨⟨hv, rfl⟩, hbs⟩

/-- One format after another. -/
def pair (c : Codec α) (d : Codec β) : Codec (α × β) where
  Valid p := c.Valid p.1 ∧ d.Valid p.2
  enc p := c.enc p.1 ++ d.enc p.2
  dec bs := (c.dec bs).bind fun p => (d.dec p.2).map fun q => ((p.1, q.1), q.2)
  dec_enc := by
    intro p rest h
    rw [List.append_assoc, c.dec_enc _ _ h.1]
    simp [d.dec_enc _ _ h.2]
  enc_dec := by
    intro bs p rest h
    obtain ⟨⟨a, r⟩, ha, hd⟩ := Option.bind_eq_some_iff.mp h
    obtain ⟨⟨b, r'⟩, hb, hab⟩ := Option.map_eq_some_iff.mp hd
    cases hab
    obtain ⟨hva, rfl⟩ := c.enc_dec bs a r ha
    obtain ⟨hvb, rfl⟩ := d.enc_dec r b r' hb
    exact ⟨⟨hva, hvb⟩, by simp⟩

/-- A header that decides the format of what follows; `hdr` reads it back off the value. -/
def dep (c : Codec α) (d : α → Codec β) (hdr : β → α)
    (hhdr : ∀ a b, (d a).Valid b → hdr b = a) : Codec β where
  Valid b := c.Valid (hdr b) ∧ (d (hdr b)).Valid b
  enc b := c.enc (hdr b) ++ (d (hdr b)).enc b
  dec bs := (c.dec bs).bind fun p => (d p.1).dec p.2
  dec_enc := by
    intro b rest h
    rw [List.append_assoc, c.dec_enc _ _ h.1]
    simp [(d (hdr b)).dec_enc _ _ h.2]
  enc_dec := by
    intro bs b rest h
    obtain ⟨⟨a, r⟩, ha, hd⟩ := Option.bind_eq_some_iff.mp h
    obtain ⟨hva, rfl⟩ := c.enc_dec bs a r ha
    obtain ⟨hvb, rfl⟩ := (d a).enc_dec r b rest hd
    rw [hhdr a b hvb]
    exact ⟨⟨hva, hvb⟩, by simp⟩

/-- `n` values, one after another. -/
def repeatDec (c : Codec α) : Nat → List UInt8 → Option (List α × List UInt8)
  | 0, bs => some ([], bs)
  | n + 1, bs => (c.dec bs).bind fun p =>
      (repeatDec c n p.2).map fun q => (p.1 :: q.1, q.2)

theorem repeatDec_enc (c : Codec α) (xs : List α) (rest : List UInt8)
    (h : ∀ x ∈ xs, c.Valid x) :
    repeatDec c xs.length (xs.flatMap c.enc ++ rest) = some (xs, rest) := by
  induction xs with
  | nil => rfl
  | cons x xs ih =>
    have hxs := ih fun y hy => h y (List.mem_cons_of_mem x hy)
    simp only [List.length_cons, repeatDec, List.flatMap_cons, List.append_assoc]
    rw [c.dec_enc x _ (h x (by simp))]
    simp [hxs]

theorem enc_repeatDec (c : Codec α) {n : Nat} {bs : List UInt8} {xs : List α}
    {rest : List UInt8} (h : repeatDec c n bs = some (xs, rest)) :
    (xs.length = n ∧ ∀ x ∈ xs, c.Valid x) ∧ bs = xs.flatMap c.enc ++ rest := by
  induction n generalizing bs xs with
  | zero => cases h; simp
  | succ n ih =>
    obtain ⟨⟨x, r⟩, hx, hd⟩ := Option.bind_eq_some_iff.mp h
    obtain ⟨⟨ys, r'⟩, hys, hcons⟩ := Option.map_eq_some_iff.mp hd
    cases hcons
    obtain ⟨hvx, rfl⟩ := c.enc_dec bs x r hx
    obtain ⟨⟨hlen, hvys⟩, rfl⟩ := ih hys
    refine ⟨⟨by simp [hlen], ?_⟩, by simp⟩
    intro y hy
    rcases List.mem_cons.mp hy with rfl | hy
    · exact hvx
    · exact hvys y hy

/-- A list of exactly `n` values. -/
def exactly (c : Codec α) (n : Nat) : Codec (List α) where
  Valid xs := xs.length = n ∧ ∀ x ∈ xs, c.Valid x
  enc xs := xs.flatMap c.enc
  dec := repeatDec c n
  dec_enc := by
    intro xs rest h
    rw [← h.1]
    exact repeatDec_enc c xs rest h.2
  enc_dec := fun _ _ _ h => enc_repeatDec c h

/-- A little-endian integer of `w` bytes. -/
def leNat (w : Nat) : Codec Nat :=
  (bytes w).map ofLe (leBytes w) fun b h => by
    have hb : b.length = w := h
    rw [← hb, leBytes_ofLe]

theorem leNat_valid {w n : Nat} : (leNat w).Valid n ↔ n < 256 ^ w := by
  constructor
  · rintro ⟨hlen, hn⟩
    have h := ofLe_lt (leBytes w n)
    rw [hn, length_leBytes] at h
    exact h
  · intro h
    exact ⟨length_leBytes w n, ofLe_leBytes h⟩

@[simp] theorem enc_leNat (w n : Nat) : (leNat w).enc n = leBytes w n := rfl

/-! ## The variable-length integer -/

/-- One byte below `0xfd`; otherwise a marker byte and 2, 4 or 8 little-endian bytes,
    whichever is the shortest that fits. -/
def compactSizeEnc (n : Nat) : List UInt8 :=
  if n < 0xfd then [UInt8.ofNat n]
  else if n < 0x10000 then 0xfd :: leBytes 2 n
  else if n < 0x100000000 then 0xfe :: leBytes 4 n
  else 0xff :: leBytes 8 n

/-- A marked integer of `w` bytes is accepted only from `least` on. -/
def markedDec (w least : Nat) (bs : List UInt8) : Option (Nat × List UInt8) :=
  ((leNat w).dec bs).bind fun p => if least ≤ p.1 then some p else none

def compactSizeDec : List UInt8 → Option (Nat × List UInt8)
  | [] => none
  | b :: bs =>
    if b.toNat < 0xfd then some (b.toNat, bs)
    else if b.toNat = 0xfd then markedDec 2 0xfd bs
    else if b.toNat = 0xfe then markedDec 4 0x10000 bs
    else markedDec 8 0x100000000 bs

theorem markedDec_enc {w least n : Nat} (rest : List UInt8) (hl : least ≤ n)
    (hn : n < 256 ^ w) : markedDec w least (leBytes w n ++ rest) = some (n, rest) := by
  have h := (leNat w).dec_enc n rest (leNat_valid.mpr hn)
  rw [enc_leNat] at h
  simp [markedDec, h, hl]

theorem enc_markedDec {w least n : Nat} {bs rest : List UInt8}
    (h : markedDec w least bs = some (n, rest)) :
    least ≤ n ∧ n < 256 ^ w ∧ bs = leBytes w n ++ rest := by
  obtain ⟨⟨m, r⟩, hm, hif⟩ := Option.bind_eq_some_iff.mp h
  split at hif
  next hl =>
    cases hif
    obtain ⟨hv, hbs⟩ := (leNat w).enc_dec bs n rest hm
    exact ⟨hl, leNat_valid.mp hv, hbs⟩
  next => cases hif

theorem compactSizeDec_enc {n : Nat} (rest : List UInt8) (h : n < 2 ^ 64) :
    compactSizeDec (compactSizeEnc n ++ rest) = some (n, rest) := by
  unfold compactSizeEnc
  split_ifs with h1 h2 h3
  · have hb : (UInt8.ofNat n).toNat = n := by rw [UInt8.toNat_ofNat']; omega
    simp [compactSizeDec, hb, h1]
  · simpa [compactSizeDec] using markedDec_enc rest (Nat.not_lt.mp h1) h2
  · simpa [compactSizeDec] using markedDec_enc rest (Nat.not_lt.mp h2) h3
  · simpa [compactSizeDec] using markedDec_enc rest (Nat.not_lt.mp h3) h

theorem enc_compactSizeDec {n : Nat} {bs rest : List UInt8}
    (h : compactSizeDec bs = some (n, rest)) :
    n < 2 ^ 64 ∧ bs = compactSizeEnc n ++ rest := by
  cases bs with
  | nil => cases h
  | cons b bs =>
    have hb : b.toNat < 256 := b.toNat_lt
    have marker : ∀ m : Nat, b.toNat = m → b = UInt8.ofNat m := by
      intro m hm
      rw [← hm, UInt8.ofNat_toNat]
    simp only [compactSizeDec] at h
    split_ifs at h with h1 h2 h3
    · cases h
      exact ⟨by omega, by simp [compactSizeEnc, h1]⟩
    · obtain ⟨hl, hn, rfl⟩ := enc_markedDec h
      have hlt : n < 0x10000 := hn
      refine ⟨by omega, ?_⟩
      rw [marker _ h2, compactSizeEnc, if_neg (by omega), if_pos hlt]
      rfl
    · obtain ⟨hl, hn, rfl⟩ := enc_markedDec h
      have hlt : n < 0x100000000 := hn
      refine ⟨by omega, ?_⟩
      rw [marker _ h3, compactSizeEnc, if_neg (by omega), if_neg (by omega), if_pos hlt]
      rfl
    · obtain ⟨hl, hn, rfl⟩ := enc_markedDec h
      refine ⟨hn, ?_⟩
      rw [marker 0xff (by omega), compactSizeEnc, if_neg (by omega), if_neg (by omega),
        if_neg (by omega)]
      rfl

/-- The variable-length integer, below `2 ^ 64`. -/
def compactSize : Codec Nat where
  Valid n := n < 2 ^ 64
  enc := compactSizeEnc
  dec := compactSizeDec
  dec_enc := fun _ rest h => compactSizeDec_enc rest h
  enc_dec := fun _ _ _ h => enc_compactSizeDec h

/-- Bytes behind their length. -/
def varBytes : Codec (List UInt8) :=
  dep compactSize bytes List.length fun _ _ h => h

/-- Values behind their number. -/
def vec (c : Codec α) : Codec (List α) :=
  dep compactSize (exactly c) List.length fun _ _ h => h.1

theorem varBytes_valid {b : List UInt8} : varBytes.Valid b ↔ b.length < 2 ^ 64 :=
  ⟨fun h => h.1, fun h => ⟨h, rfl⟩⟩

theorem vec_valid {c : Codec α} {xs : List α} :
    (vec c).Valid xs ↔ xs.length < 2 ^ 64 ∧ ∀ x ∈ xs, c.Valid x :=
  ⟨fun h => ⟨h.1, h.2.2⟩, fun h => ⟨h.1, rfl, h.2⟩⟩

@[simp] theorem enc_varBytes (b : List UInt8) :
    varBytes.enc b = compactSizeEnc b.length ++ b := rfl

@[simp] theorem enc_vec (c : Codec α) (xs : List α) :
    (vec c).enc xs = compactSizeEnc xs.length ++ xs.flatMap c.enc := rfl

theorem varBytes_valid_of_length {b : List UInt8} (h : (varBytes.enc b).length < 2 ^ 64) :
    varBytes.Valid b := by
  rw [enc_varBytes, List.length_append] at h
  exact varBytes_valid.mpr (by omega)

private theorem length_le_flatMap {f : α → List UInt8} {xs : List α}
    (h : ∀ x ∈ xs, 1 ≤ (f x).length) : xs.length ≤ (xs.flatMap f).length := by
  induction xs with
  | nil => simp
  | cons x xs ih =>
    have hx := h x (by simp)
    have hxs := ih fun y hy => h y (List.mem_cons_of_mem x hy)
    simp only [List.length_cons, List.flatMap_cons, List.length_append]
    omega

theorem length_le_flatMap_of_mem {f : α → List UInt8} {xs : List α} {x : α} (h : x ∈ xs) :
    (f x).length ≤ (xs.flatMap f).length := by
  induction xs with
  | nil => cases h
  | cons y xs ih =>
    simp only [List.flatMap_cons, List.length_append]
    rcases List.mem_cons.mp h with rfl | h
    · omega
    · have := ih h
      omega

/-- A list whose encoding is short enough is one the format can carry. -/
theorem vec_valid_of_length {c : Codec α} {xs : List α}
    (hc : ∀ x ∈ xs, 1 ≤ (c.enc x).length ∧ ((c.enc x).length < 2 ^ 64 → c.Valid x))
    (h : ((vec c).enc xs).length < 2 ^ 64) : (vec c).Valid xs := by
  rw [enc_vec, List.length_append] at h
  refine vec_valid.mpr ⟨?_, fun x hx => (hc x hx).2 ?_⟩
  · have := length_le_flatMap fun x hx => (hc x hx).1
    omega
  · have := length_le_flatMap_of_mem (f := c.enc) hx
    omega

/-- The number of bytes of a variable-length integer. -/
def compactSizeLength (n : Nat) : Nat :=
  if n < 0xfd then 1 else if n < 0x10000 then 3 else if n < 0x100000000 then 5 else 9

@[simp] theorem length_compactSizeEnc (n : Nat) :
    (compactSizeEnc n).length = compactSizeLength n := by
  unfold compactSizeEnc compactSizeLength
  split_ifs <;> simp

theorem compactSizeLength_pos (n : Nat) : 1 ≤ compactSizeLength n := by
  unfold compactSizeLength
  split_ifs <;> omega

theorem compactSizeLength_le_three {n : Nat} (h : n < 65536) : compactSizeLength n ≤ 3 := by
  unfold compactSizeLength
  split_ifs <;> omega

end Codec
