/-
  Translator/UserIdentities.lean
  ==============================
  **The identity that reaches the pool** — the configured identity, with the suffix of a miner
  (`minerIdentity`) and, over one shared channel, with the suffix of the proxy
  (`aggregatedUpstreamUserIdentity`).

  Both rewritings leave a payout pattern alone and keep what precedes the first dot, which is all
  that the payout parser reads of any other identity (`tryFrom_of_noPattern`).  The suffix of the
  proxy can be longer than the one it replaces.
-/
import Sv2Apps.Payout
import Sv2Apps.Translator.ReferenceChannels
import Sv2Apps.Translator.Sv1Server
import Mathlib.Data.List.TakeWhile

namespace Sv2Apps.Translator

open Bitcoin PayoutMode

/-- The same mode, or none in both cases. -/
inductive SameOutcome : Except PayoutModeError PayoutMode → Except PayoutModeError PayoutMode → Prop
  | same (r : Except PayoutModeError PayoutMode) : SameOutcome r r
  | noMode (u w : Identity) : SameOutcome (.error (.noPayoutMode u)) (.error (.noPayoutMode w))

/-! ## Texts -/

/-- A prefix without a letter lies in front of its first occurrence. -/
theorem isPrefix_of_append_cons {p l rest : List Char} {c : Char} (hc : c ∉ p)
    (h : p <+: l ++ c :: rest) : p <+: l := by
  induction l generalizing p with
  | nil =>
    cases p with
    | nil => exact List.nil_prefix
    | cons a p =>
      rw [List.nil_append, List.cons_prefix_cons] at h
      exact absurd h.1.symm (by rintro rfl; exact hc List.mem_cons_self)
  | cons x l ih =>
    cases p with
    | nil => exact List.nil_prefix
    | cons a p =>
      rw [List.cons_append, List.cons_prefix_cons] at h
      rw [List.cons_prefix_cons]
      exact ⟨h.1, ih (fun hp => hc (List.mem_cons_of_mem _ hp)) h.2⟩

theorem takeWhile_append_cons {p : Char → Bool} {c : Char} (hc : p c = false)
    (l rest : List Char) : (l ++ c :: rest).takeWhile p = l.takeWhile p := by
  induction l with
  | nil => simp [hc]
  | cons x l ih =>
    simp only [List.cons_append, List.takeWhile_cons, ih]

/-- The first of several segments is a prefix, with the letter that ends it. -/
theorem isPrefix_of_splitOn {c : Char} {l a b : List Char} {rest : List (List Char)}
    (h : l.splitOn c = a :: b :: rest) : a ++ [c] <+: l := by
  have hl : [c].intercalate (l.splitOn c) = l := List.intercalate_splitOn c
  rw [h] at hl
  rw [← hl]
  exact ⟨[c].intercalate (b :: rest), by simp [List.intercalate]⟩

/-! ## What the parser reads -/

/-- The account of an identity. -/
def account (u : Identity) : List Char := u.toList.takeWhile (· ≠ '.')

theorem addressPart_eq (u : Identity) :
    addressPartFromUserIdentity u = String.ofList (account u) := rfl

/-- An identity is followed by a suffix with a dot in front. -/
def Suffixed (u w : Identity) : Prop :=
  ∃ (stem : List Char) (rest : List Char), w.toList = stem ++ '.' :: rest ∧ stem <+: u.toList ∧
    stem.takeWhile (· ≠ '.') = account u

theorem Suffixed.account_eq {u w : Identity} (h : Suffixed u w) : account w = account u := by
  obtain ⟨stem, rest, hw, _, hstem⟩ := h
  rw [account, hw, takeWhile_append_cons (by decide), hstem]

theorem Suffixed.ne_empty {u w : Identity} (h : Suffixed u w) : w ≠ "" := by
  obtain ⟨stem, rest, hw, _⟩ := h
  rintro rfl
  have := congrArg List.length hw
  simp at this

theorem Suffixed.noPattern {u w : Identity} (h : Suffixed u w)
    (hu : ¬"sri/".toList <+: u.toList) : ¬"sri/".toList <+: w.toList := by
  obtain ⟨stem, rest, hw, hpre, _⟩ := h
  intro hsri
  rw [hw] at hsri
  exact hu ((isPrefix_of_append_cons (by decide) hsri).trans hpre)

/-- Without a payout pattern the account alone decides. -/
theorem tryFrom_of_noPattern {f : String → Option Bytes} {u : Identity} (hne : u ≠ "")
    (hu : ¬"sri/".toList <+: u.toList) :
    tryFrom f u = match f (String.ofList (account u)) with
      | some script => .ok (.legacySolo (String.ofList (account u)) script)
      | none => .error (.noPayoutMode u) := by
  have hseg : ∀ {b : String} {rest : List String},
      (u.toList.splitOn '/').map String.ofList ≠ "sri" :: b :: rest := by
    intro b rest h
    obtain ⟨x, l, hl, hx, hrest⟩ := List.map_eq_cons_iff.mp h
    obtain ⟨y, l', hl', -, -⟩ := List.map_eq_cons_iff.mp hrest
    rw [hl'] at hl
    have hpre := isPrefix_of_splitOn hl
    have hx' : x = "sri".toList := by rw [← hx, String.toList_ofList]
    rw [hx'] at hpre
    exact hu hpre
  unfold tryFrom
  rw [if_neg hne]
  dsimp only
  rw [addressPart_eq]
  cases hf : f (String.ofList (account u)) with
  | some script => rfl
  | none =>
    dsimp only
    split
    next h => exact absurd h hseg
    next h => exact absurd h hseg
    next h => exact absurd h hseg
    next h => exact absurd h hseg
    next h => exact absurd h hseg
    next => rfl

/-- A suffix makes no difference to the parser. -/
theorem Suffixed.sameOutcome {f : String → Option Bytes} {u w : Identity} (h : Suffixed u w)
    (hu : ¬"sri/".toList <+: u.toList) (hempty : u = "" → f "" = none) :
    SameOutcome (tryFrom f u) (tryFrom f w) := by
  rw [tryFrom_of_noPattern h.ne_empty (h.noPattern hu), h.account_eq]
  by_cases hne : u = ""
  · subst hne
    have hacc : String.ofList (account "") = "" := rfl
    rw [hacc, hempty rfl]
    exact .noMode "" w
  · rw [tryFrom_of_noPattern hne hu]
    cases f (String.ofList (account u)) with
    | some script => exact .same _
    | none => exact .noMode u w

/-! ## The rewritings -/

namespace ChannelManager

theorem noPattern_iff (u : Identity) : u.startsWith "sri/" = false ↔ ¬"sri/".toList <+: u.toList :=
  String.startsWith_string_eq_false_iff

theorem minerIdentity_eq {u : Identity} (h : u.startsWith "sri/" = false) (n : UInt32) :
    Sv1Server.minerIdentity u n = u ++ ".miner" ++ toString n.toNat := by
  rw [Sv1Server.minerIdentity, h]
  rfl

theorem minerIdentity_suffixed {u : Identity} (h : u.startsWith "sri/" = false) (n : UInt32) :
    Suffixed u (Sv1Server.minerIdentity u n) := by
  refine ⟨u.toList, "miner".toList ++ (toString n.toNat).toList, ?_, List.prefix_rfl, rfl⟩
  rw [minerIdentity_eq h, String.toList_append, String.toList_append, List.append_assoc]
  rfl

theorem aggregated_eq {u : Identity} (h : u.startsWith "sri/" = false) :
    aggregatedUpstreamUserIdentity u = String.ofList (account u) ++ ".translator-proxy" := by
  rw [aggregatedUpstreamUserIdentity, h]
  rfl

/-- Of an identity with a suffix the shared channel keeps the account. -/
theorem aggregated_suffixed {u w : Identity} (h : Suffixed u w) (hw : w.startsWith "sri/" = false) :
    Suffixed u (aggregatedUpstreamUserIdentity w) := by
  refine ⟨account u, "translator-proxy".toList, ?_, List.takeWhile_prefix _, ?_⟩
  · rw [aggregated_eq hw, String.toList_append, String.toList_ofList, h.account_eq]
    rfl
  · simp [account, List.takeWhile_takeWhile]

/-- Of an identity and the miner's suffix the shared channel keeps the account. -/
theorem aggregated_minerIdentity {u : Identity} (h : u.startsWith "sri/" = false) (n : UInt32) :
    aggregatedUpstreamUserIdentity (Sv1Server.minerIdentity u n) =
      String.ofList (account u) ++ ".translator-proxy" := by
  have hs := minerIdentity_suffixed h n
  have hw := (noPattern_iff _).mpr (hs.noPattern ((noPattern_iff u).mp h))
  rw [aggregated_eq hw, hs.account_eq]

/-- **The payout survives the rewriting**, in both modes. -/
theorem rewriting_sameOutcome {f : String → Option Bytes} {u : Identity}
    (hempty : u = "" → f "" = none) (n : UInt32) :
    SameOutcome (tryFrom f u) (tryFrom f (Sv1Server.minerIdentity u n)) ∧
      SameOutcome (tryFrom f u)
        (tryFrom f (aggregatedUpstreamUserIdentity (Sv1Server.minerIdentity u n))) := by
  cases hsri : u.startsWith "sri/" with
  | true =>
    have hm : Sv1Server.minerIdentity u n = u := by rw [Sv1Server.minerIdentity, hsri]; rfl
    have ha : aggregatedUpstreamUserIdentity u = u := by
      rw [aggregatedUpstreamUserIdentity, hsri]
      rfl
    rw [hm, ha]
    exact ⟨.same _, .same _⟩
  | false =>
    have hu := (noPattern_iff u).mp hsri
    have hs := minerIdentity_suffixed hsri n
    have hw := (noPattern_iff _).mpr (hs.noPattern hu)
    exact ⟨hs.sameOutcome hu hempty, (aggregated_suffixed hs hw).sameOutcome hu hempty⟩

theorem rewriting_sameOutcome_account :
    SameOutcome (tryFrom (fun a => if a = "m" then some [0] else none) "m.w")
        (tryFrom (fun a => if a = "m" then some [0] else none)
          (Sv1Server.minerIdentity "m.w" 1)) ∧
      SameOutcome (tryFrom (fun a => if a = "m" then some [0] else none) "m.w")
        (tryFrom (fun a => if a = "m" then some [0] else none)
          (aggregatedUpstreamUserIdentity (Sv1Server.minerIdentity "m.w" 1))) :=
  rewriting_sameOutcome (fun h => absurd h (by decide)) 1

/-- A conversion that takes the empty text for an address reads a mode out of a bare suffix. -/
theorem empty_identity_outcome :
    let f : String → Option Bytes := fun a => if a = "" then some [0] else none
    (∀ a, '/' ∈ a.toList → f a = none) ∧
      ¬SameOutcome (tryFrom f "") (tryFrom f (Sv1Server.minerIdentity "" 1)) := by
  refine ⟨?_, ?_⟩
  · intro a ha
    refine if_neg ?_
    rintro rfl
    cases ha
  · have h : tryFrom (fun a => if a = "" then some [0] else none) "" =
        .error (.noPayoutMode "") := by decide +kernel
    have h' : tryFrom (fun a => if a = "" then some [0] else none)
        (Sv1Server.minerIdentity "" 1) = .ok (.legacySolo "" [0]) := by decide +kernel
    rw [h, h']
    intro hsame
    cases hsame

/-! ## How long it gets -/

/-- The bytes of a `Str0255`. -/
def str0255Bytes : Nat := 255

/-- The identity that is built for the shared channel has room. -/
def AccountFits (u : Identity) : Prop :=
  u.startsWith "sri/" = true ∨
    (String.ofList (account u)).utf8ByteSize + ".translator-proxy".utf8ByteSize ≤ str0255Bytes

section Opening

variable {Ch Gr Al : Type} (api : ClientChannels Ch Gr Al) (cfg : Config)

/-- No state in which no shared channel is asked for yet makes the opening of one panic. -/
def OpeningNeverPanics (identity : Identity) : Prop :=
  ∀ (s : ChannelManager Ch Gr Al) (r : RequestId) (size : UInt16),
    s.aggregatedChannelState = .noChannel →
      handleOpenExtendedMiningChannel api cfg s ⟨r, identity, size⟩ ≠ .error .panicked

theorem openingNeverPanics_iff (hmode : cfg.mode = .aggregated) (identity : Identity) :
    OpeningNeverPanics api cfg identity ↔
      (aggregatedUpstreamUserIdentity identity).utf8ByteSize ≤ str0255Bytes := by
  constructor
  · intro h
    by_contra hlong
    have hbool : decide ((aggregatedUpstreamUserIdentity identity).utf8ByteSize ≤ 255) = false :=
      decide_eq_false hlong
    refine h start 0 0 rfl ?_
    simp only [handleOpenExtendedMiningChannel, hmode, start, Fallible.require, hbool]
    rfl
  · intro hfits s r size hs
    have hbool : decide ((aggregatedUpstreamUserIdentity identity).utf8ByteSize ≤ 255) = true :=
      decide_eq_true hfits
    simp only [handleOpenExtendedMiningChannel, hmode, hs, Fallible.require, hbool]
    intro h
    cases h

/-- **When the rewriting never panics**: when the account leaves room for the proxy's suffix, which
    is not always so where the miner's suffix fitted. -/
theorem opening_neverPanics_iff (hmode : cfg.mode = .aggregated) {u : Identity} {n : UInt32}
    (hfits : (Sv1Server.minerIdentity u n).utf8ByteSize ≤ str0255Bytes) :
    OpeningNeverPanics api cfg (Sv1Server.minerIdentity u n) ↔ AccountFits u := by
  rw [openingNeverPanics_iff api cfg hmode]
  cases hsri : u.startsWith "sri/" with
  | true =>
    have hm : Sv1Server.minerIdentity u n = u := by rw [Sv1Server.minerIdentity, hsri]; rfl
    have ha : aggregatedUpstreamUserIdentity u = u := by
      rw [aggregatedUpstreamUserIdentity, hsri]
      rfl
    rw [hm, ha, AccountFits, hsri]
    rw [hm] at hfits
    exact ⟨fun _ => .inl rfl, fun _ => hfits⟩
  | false =>
    rw [aggregated_minerIdentity hsri, String.utf8ByteSize_append, AccountFits, hsri]
    simp

end Opening

theorem opening_neverPanics_iff_account :
    (Sv1Server.minerIdentity "acc.w" 1).utf8ByteSize ≤ str0255Bytes ∧
      (OpeningNeverPanics referenceChannels (sampleConfig .aggregated)
        (Sv1Server.minerIdentity "acc.w" 1) ↔ AccountFits "acc.w") := by
  have hfits : (Sv1Server.minerIdentity "acc.w" 1).utf8ByteSize ≤ str0255Bytes := by decide +kernel
  exact ⟨hfits, opening_neverPanics_iff referenceChannels (sampleConfig .aggregated) rfl hfits⟩

/-- An identity of 239 letters: with `.miner1` it fits, with `.translator-proxy` it does not. -/
theorem long_identity_panics :
    (Sv1Server.minerIdentity (String.ofList (List.replicate 239 'a')) 1).utf8ByteSize ≤
        str0255Bytes ∧
      ¬OpeningNeverPanics referenceChannels (sampleConfig .aggregated)
        (Sv1Server.minerIdentity (String.ofList (List.replicate 239 'a')) 1) := by
  have hsri : (String.ofList (List.replicate 239 'a')).startsWith "sri/" = false := by
    decide +kernel
  refine ⟨by decide +kernel, ?_⟩
  rw [openingNeverPanics_iff referenceChannels (sampleConfig .aggregated) rfl,
    aggregated_minerIdentity hsri, account, String.toList_ofList]
  decide +kernel

end ChannelManager

end Sv2Apps.Translator
