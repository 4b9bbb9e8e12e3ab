/-
  Lib/BlockReader.lean
  ====================
  **A reader that asks for blocks** — in each state the machine says how many symbols it needs next,
  is given exactly that many, and may answer with an output.  `Reads` is the plain reading of one
  input, block after block; how the input is cut into pieces on its way to the machine is left to
  those that use it.

  The outputs are a matter of the input alone: a reading that can go on is the beginning of one that
  cannot (`Reads.continues`), and of two readings of one input one is the beginning of the other
  (`Reads.comparable`).  More input never takes an output back (`Reads.append_input`).
-/
import Mathlib.Data.List.Basic

namespace BlockReader

structure Machine (σ α β : Type) where
  need : σ → Nat
  feed : σ → List α → σ × Option β

variable {σ α β : Type} {m : Machine σ α β}

/-- From a state and an input to the outputs, the state and the input that is left. -/
inductive Reads (m : Machine σ α β) : σ → List α → List β → σ → List α → Prop
  | done (s : σ) (input : List α) : Reads m s input [] s input
  | block {s s₁ s' : σ} {input rest : List α} {b : Option β} {out : List β}
      (enough : m.need s ≤ input.length)
      (fed : m.feed s (input.take (m.need s)) = (s₁, b))
      (later : Reads m s₁ (input.drop (m.need s)) out s' rest) :
    Reads m s input (b.toList ++ out) s' rest

theorem Reads.trans {s s₁ s₂ : σ} {input mid rest : List α} {out out' : List β}
    (h : Reads m s input out s₁ mid) (h' : Reads m s₁ mid out' s₂ rest) :
    Reads m s input (out ++ out') s₂ rest := by
  induction h with
  | done s input => exact h'
  | block enough fed _ ih =>
    rw [List.append_assoc]
    exact .block enough fed (ih h')

theorem Reads.next {s s₁ s₂ : σ} {input rest : List α} {out : List β} {b : Option β}
    (h : Reads m s input out s₁ rest) (enough : m.need s₁ ≤ rest.length)
    (fed : m.feed s₁ (rest.take (m.need s₁)) = (s₂, b)) :
    Reads m s input (out ++ b.toList) s₂ (rest.drop (m.need s₁)) := by
  have hlast : Reads m s₁ rest (b.toList ++ []) s₂ (rest.drop (m.need s₁)) :=
    .block enough fed (.done _ _)
  rw [List.append_nil] at hlast
  exact h.trans hlast

theorem Reads.append_input {s s' : σ} {input rest : List α} {out : List β}
    (h : Reads m s input out s' rest) (tail : List α) :
    Reads m s (input ++ tail) out s' (rest ++ tail) := by
  induction h with
  | done s input => exact .done _ _
  | @block s _ _ input _ _ _ enough fed _ ih =>
    apply Reads.block
    · rw [List.length_append]
      exact Nat.le_trans enough (Nat.le_add_right _ _)
    · rw [List.take_append_of_le_length enough]
      exact fed
    · rw [List.drop_append_of_le_length enough]
      exact ih

/-- The machine cannot go on with what is left. -/
def Starved (m : Machine σ α β) (s : σ) (rest : List α) : Prop := rest.length < m.need s

theorem Reads.continues {s s₁ s₂ : σ} {input rest₁ rest₂ : List α} {out₁ out₂ : List β}
    (h₁ : Reads m s input out₁ s₁ rest₁) (h₂ : Reads m s input out₂ s₂ rest₂)
    (hstarved : Starved m s₂ rest₂) :
    ∃ out, out₂ = out₁ ++ out ∧ Reads m s₁ rest₁ out s₂ rest₂ := by
  induction h₁ generalizing out₂ with
  | done s input => exact ⟨out₂, rfl, h₂⟩
  | block enough fed _ ih =>
    cases h₂ with
    | done => exact absurd enough (Nat.not_le_of_lt hstarved)
    | block _ fed₂ later₂ =>
      rw [fed] at fed₂
      cases fed₂
      obtain ⟨out, rfl, hout⟩ := ih later₂
      exact ⟨out, by rw [List.append_assoc], hout⟩

theorem Reads.comparable {s s₁ s₂ : σ} {input rest₁ rest₂ : List α} {out₁ out₂ : List β}
    (h₁ : Reads m s input out₁ s₁ rest₁) (h₂ : Reads m s input out₂ s₂ rest₂) :
    (∃ out, out₂ = out₁ ++ out ∧ Reads m s₁ rest₁ out s₂ rest₂) ∨
      ∃ out, out₁ = out₂ ++ out ∧ Reads m s₂ rest₂ out s₁ rest₁ := by
  induction h₁ generalizing out₂ with
  | done s input => exact .inl ⟨out₂, rfl, h₂⟩
  | block enough fed later ih =>
    cases h₂ with
    | done => exact .inr ⟨_, rfl, .block enough fed later⟩
    | block _ fed₂ later₂ =>
      rw [fed] at fed₂
      cases fed₂
      rcases ih later₂ with ⟨out, rfl, hout⟩ | ⟨out, rfl, hout⟩
      · exact .inl ⟨out, by rw [List.append_assoc], hout⟩
      · exact .inr ⟨out, by rw [List.append_assoc], hout⟩

/-- Where no block brings an output or leads elsewhere, there is no output. -/
theorem Reads.silent {P : σ → Prop} {s s' : σ} {input rest : List α} {out : List β}
    (h : Reads m s input out s' rest) (hs : P s)
    (hfeed : ∀ s block, P s → P (m.feed s block).1 ∧ (m.feed s block).2 = none) : out = [] := by
  induction h with
  | done => rfl
  | @block s _ _ input _ _ _ _ fed _ ih =>
    have hkept := hfeed s (input.take (m.need s)) hs
    rw [fed] at hkept
    obtain ⟨hs₁, rfl⟩ := hkept
    exact ih hs₁

end BlockReader
