/-
  Extensions/WorkerNames.lean
  ===========================
  **Worker names reach the server** — the translator writes the worker name of a share behind the
  message once the extension is negotiated, cut down to whole characters
  (`truncatedWorkerName_longest`).

  The server reads the field only if it has negotiated the extension itself, twice: where the frame
  is parsed, and later where the share is handled.  In every run the shares are handled in the order
  in which they were sent, each with the name that was attached to it (`names_read`): the two ends
  agree as soon as the first name is on its way, and they never negotiate again.
-/
import Sv2Apps.Extensions.Agreement
import Mathlib.Data.String.Basic

namespace Sv2Apps.Extensions

open String (utf8Len)

/-! ## Whole characters -/

section Truncation

variable {cs l : List Char} {i n : Nat}

theorem isCharBoundary_iff : isCharBoundary cs i = true ↔ ∃ l, l <+: cs ∧ utf8Len l = i := by
  induction cs generalizing i with
  | nil =>
    cases i with
    | zero => simp [isCharBoundary]
    | succ i => simp [isCharBoundary]
  | cons c cs ih =>
    cases i with
    | zero =>
      simp only [isCharBoundary, true_iff]
      exact ⟨[], List.nil_prefix, rfl⟩
    | succ i =>
      simp only [isCharBoundary, Bool.and_eq_true, decide_eq_true_eq, ih]
      constructor
      · rintro ⟨hc, l, hl, hlen⟩
        refine ⟨c :: l, List.cons_prefix_cons.mpr ⟨rfl, hl⟩, ?_⟩
        rw [String.utf8Len_cons, hlen]
        omega
      · rintro ⟨l, hl, hlen⟩
        cases l with
        | nil => simp at hlen
        | cons d l =>
          obtain ⟨rfl, htail⟩ := List.cons_prefix_cons.mp hl
          rw [String.utf8Len_cons] at hlen
          exact ⟨by omega, l, htail, by omega⟩

theorem charBoundaryBelow_le : charBoundaryBelow cs n ≤ n := by
  induction n with
  | zero => exact Nat.le_refl _
  | succ n ih =>
    simp only [charBoundaryBelow]
    split
    · exact Nat.le_refl _
    · omega

theorem isCharBoundary_below : isCharBoundary cs (charBoundaryBelow cs n) = true := by
  induction n with
  | zero => cases cs <;> rfl
  | succ n ih =>
    simp only [charBoundaryBelow]
    split
    · assumption
    · exact ih

/-- The loop finds the last boundary. -/
theorem le_charBoundaryBelow (hb : isCharBoundary cs i = true) (hi : i ≤ n) :
    i ≤ charBoundaryBelow cs n := by
  induction n with
  | zero => exact hi
  | succ n ih =>
    simp only [charBoundaryBelow]
    split
    · exact hi
    next hn =>
      apply ih
      have : i ≠ n + 1 := by
        rintro rfl
        exact hn hb
      omega

theorem sliceTo_utf8Len (h : l <+: cs) : sliceTo cs (utf8Len l) = l := by
  induction l generalizing cs with
  | nil => cases cs <;> rfl
  | cons c l ih =>
    cases cs with
    | nil => simp at h
    | cons d cs =>
      obtain ⟨rfl, hl⟩ := List.cons_prefix_cons.mp h
      have hpos := c.utf8Size_pos
      obtain ⟨k, hk⟩ : ∃ k, utf8Len (c :: l) = k + 1 := ⟨utf8Len (c :: l) - 1, by simp; omega⟩
      rw [hk, sliceTo, ← hk, String.utf8Len_cons, if_pos (by omega), Nat.add_sub_cancel, ih hl]

/-- Of two beginnings of one text the one with fewer bytes is a beginning of the other. -/
theorem isPrefix_of_utf8Len_le {l r : List Char} (hl : l <+: cs) (hr : r <+: cs)
    (h : utf8Len l ≤ utf8Len r) : l <+: r := by
  rcases List.prefix_or_prefix_of_prefix hl hr with hlr | hrl
  · exact hlr
  · obtain ⟨t, rfl⟩ := hrl
    rw [String.utf8Len_append] at h
    have hnil : t = [] := String.utf8Len_eq_zero.mp (by omega)
    simp [hnil]

/-- The text that is sent is the longest beginning of the worker name, in whole characters, that
    has at most `maxLength` bytes. -/
theorem truncatedWorkerName_longest (maxLength : Nat) (name : String) :
    (truncatedWorkerName maxLength name).utf8ByteSize ≤ maxLength ∧
    (truncatedWorkerName maxLength name).toList <+: name.toList ∧
    ∀ l, l <+: name.toList → utf8Len l ≤ maxLength →
      l <+: (truncatedWorkerName maxLength name).toList := by
  unfold truncatedWorkerName
  split
  next hfits => exact ⟨hfits, List.prefix_refl _, fun l hl _ => hl⟩
  · have hbelow : isCharBoundary name.toList (charBoundaryBelow name.toList maxLength) = true :=
      isCharBoundary_below
    obtain ⟨r, hr, hlen⟩ := isCharBoundary_iff.mp hbelow
    rw [← hlen, sliceTo_utf8Len hr, String.toList_ofList, String.utf8ByteSize_ofList, hlen]
    refine ⟨charBoundaryBelow_le, hr, ?_⟩
    intro l hl hmax
    apply isPrefix_of_utf8Len_le hl hr
    rw [hlen]
    exact le_charBoundaryBelow (isCharBoundary_iff.mpr ⟨l, hl, rfl⟩) hmax

end Truncation

/-! ## Fields behind a message -/

/-- What the applications rely on in the crates that write and read TLV fields. -/
structure TlvCrate.Lawful (c : TlvCrate) : Prop where
  toTlv_fits : ∀ name, name.utf8ByteSize ≤ c.MAX_USER_IDENTITY_LENGTH → ∃ t, c.toTlv name = some t
  toTlv_type : ∀ name t, c.toTlv name = some t →
    t.extensionType = EXTENSION_TYPE_WORKER_HASHRATE_TRACKING ∧
      t.fieldType = c.TLV_FIELD_TYPE_USER_IDENTITY
  fromTlv_toTlv : ∀ name t, c.toTlv name = some t → c.fromTlv t = some name
  parse_nil : ∀ exts, ∃ o, c.parseTlvs exts [] = some o ∧ o.getD [] = []
  parse_one : ∀ exts t, exts.contains t.extensionType = true →
    c.parseTlvs exts [t] = some (some [t])

theorem plainCrate_lawful : plainCrate.Lawful where
  toTlv_fits name h := ⟨_, if_pos h⟩
  toTlv_type name t h := by
    simp only [plainCrate] at h
    split at h
    · obtain rfl := Option.some.inj h
      exact ⟨rfl, rfl⟩
    · cases h
  fromTlv_toTlv name t h := by
    simp only [plainCrate] at h
    split at h
    · obtain rfl := Option.some.inj h
      simp only [plainCrate, String.fromUTF8?, Array.toArray_toList, String.toUTF8_eq_toByteArray,
        dif_pos name.isValidUTF8]
      rfl
    · cases h
  parse_nil exts := ⟨_, rfl, rfl⟩
  parse_one exts t h := by
    have hkeep : [t].filter (exts.contains ·.extensionType) = [t] :=
      List.filter_eq_self.mpr (by simpa using h)
    simp only [plainCrate, hkeep]

/-- The name in the fields of a share, whoever has negotiated what. -/
def nameIn (c : TlvCrate) (tlvs : List Tlv) : Option String :=
  (tlvs.find? fun tlv =>
    tlv.extensionType = EXTENSION_TYPE_WORKER_HASHRATE_TRACKING &&
      tlv.fieldType = c.TLV_FIELD_TYPE_USER_IDENTITY).bind c.fromTlv

/-- Fields that the server understands: there are none, or it is one name and the extension is
    among the negotiated. -/
inductive Understood (c : TlvCrate) (negotiated : List UInt16) : List Tlv → Prop
  | none : Understood c negotiated []
  | name {name : String} {t : Tlv} (ht : c.toTlv name = some t)
    (hneg : negotiated.contains EXTENSION_TYPE_WORKER_HASHRATE_TRACKING = true) :
    Understood c negotiated [t]

theorem nameIn_toTlv {c : TlvCrate} (hc : c.Lawful) {name : String} {t : Tlv}
    (ht : c.toTlv name = some t) : nameIn c [t] = some name := by
  obtain ⟨hext, hfield⟩ := hc.toTlv_type name t ht
  simp [nameIn, List.find?, hext, hfield, hc.fromTlv_toTlv name t ht]

theorem Understood.parsed {c : TlvCrate} (hc : c.Lawful) {negotiated : List UInt16}
    {tlvs : List Tlv} (h : Understood c negotiated tlvs) :
    ∃ fields, c.parseTlvs negotiated tlvs = some fields ∧ fields.getD [] = tlvs := by
  cases h with
  | none => exact hc.parse_nil negotiated
  | name ht hneg =>
    refine ⟨some _, hc.parse_one negotiated _ ?_, rfl⟩
    rw [(hc.toTlv_type _ _ ht).1]
    exact hneg

theorem Understood.read {c : TlvCrate} {negotiated : List UInt16} {fields : Option (List Tlv)}
    (h : Understood c negotiated (fields.getD [])) :
    readUserIdentity c negotiated fields = nameIn c (fields.getD []) := by
  unfold readUserIdentity nameIn
  cases fields with
  | none => simp
  | some tlvs =>
    cases h with
    | none => simp
    | name ht hneg =>
      rw [if_pos hneg]
      rfl

/-! ## Every run -/

namespace Session

variable {p : Parties} {s : Session}

/-- The shares on their way to the server, each with the name in its fields. -/
def sharesOf (c : TlvCrate) (l : List ClientFrame) : List (Nat × Option String) :=
  l.filterMap fun
    | .requestExtensions _ => none
    | .submitShares n tlvs => some (n, nameIn c tlvs)

/-- The shares that have not been handled yet, the oldest first. -/
def pending (c : TlvCrate) (s : Session) : List (Nat × Option String) :=
  s.toManager.map (fun e => (e.1, nameIn c (e.2.getD []))) ++ sharesOf c s.toServer

/-- The names arrive as they were attached. -/
structure Attributed (p : Parties) (s : Session) : Prop where
  frames : ∀ n tlvs, .submitShares n tlvs ∈ s.toServer →
    Understood p.crate s.clientNegotiated tlvs
  queued : ∀ e ∈ s.toManager, Understood p.crate s.clientNegotiated (e.2.getD [])
  read : s.read <+: s.sent
  order : s.registered = true → s.read ++ pending p.crate s <+: s.sent
  complete : s.registered = true → s.connected = true → s.read ++ pending p.crate s = s.sent
  client : s.clientLeft = some .shutdown → seq064K p.clientRequired = none
  server : s.serverLeft ≠ some .parserError

/-- What the client has negotiated the server has negotiated. -/
theorem understood_server (ho : Orderly p s) {tlvs : List Tlv}
    (h : Understood p.crate s.clientNegotiated tlvs) :
    Understood p.crate s.serverNegotiated tlvs := by
  cases h with
  | none => exact .none
  | name ht hneg =>
    apply Understood.name ht
    obtain ⟨_, _, hclient, hserver⟩ := ho.stored (by
      intro hnil
      simp [hnil] at hneg)
    rw [hserver, ← hclient]
    exact hneg

theorem shareTlvs_understood (hc : p.crate.Lawful) (s : Session) (name : Option String) :
    ∃ attached tlvs, shareTlvs p s name = some (attached, tlvs) ∧
      Understood p.crate s.clientNegotiated tlvs ∧ nameIn p.crate tlvs = attached := by
  unfold shareTlvs
  split
  · exact ⟨none, [], rfl, .none, rfl⟩
  · split
    · exact ⟨none, [], rfl, .none, rfl⟩
    next text htext =>
      simp only [attachedName] at htext
      split at htext
      next hneg =>
        obtain ⟨worker, _, rfl⟩ := Option.map_eq_some_iff.mp htext
        obtain ⟨t, ht⟩ := hc.toTlv_fits _ (truncatedWorkerName_longest _ worker).1
        rw [ht]
        exact ⟨_, _, rfl, .name ht hneg, nameIn_toTlv hc ht⟩
      · cases htext

/-- A step that leaves the shares where they are. -/
theorem Attributed.of_same {s' : Session} (h : Attributed p s)
    (hframes : ∀ n tlvs, .submitShares n tlvs ∈ s'.toServer → .submitShares n tlvs ∈ s.toServer)
    (hmanager : s'.toManager = s.toManager)
    (hshares : sharesOf p.crate s'.toServer = sharesOf p.crate s.toServer)
    (hread : s'.read = s.read) (hsent : s'.sent = s.sent)
    (hcn : ∀ tlvs, Understood p.crate s.clientNegotiated tlvs →
      Understood p.crate s'.clientNegotiated tlvs)
    (hreg : s'.registered = true → s.registered = true)
    (hcon : s'.connected = true → s.connected = true)
    (hclient : s'.clientLeft = some .shutdown → seq064K p.clientRequired = none)
    (hserver : s'.serverLeft ≠ some .parserError) : Attributed p s' where
  frames := fun n tlvs hmem => hcn tlvs (h.frames n tlvs (hframes n tlvs hmem))
  queued := by
    rw [hmanager]
    exact fun e he => hcn _ (h.queued e he)
  read := by rw [hread, hsent]; exact h.read
  order := by
    intro hr
    rw [hread, hsent, pending, hmanager, hshares]
    exact h.order (hreg hr)
  complete := by
    intro hr hc
    rw [hread, hsent, pending, hmanager, hshares]
    exact h.complete (hreg hr) (hcon hc)
  client := hclient
  server := hserver

theorem start_attributed : Attributed p (start p) := by
  have hidle : ∀ l, sharesOf p.crate l = [] → (∀ n tlvs, .submitShares n tlvs ∉ l) →
      Attributed p { idle with toServer := l } := by
    intro l hl hmem
    exact {
      frames := fun n tlvs h => absurd h (hmem n tlvs)
      queued := by simp [idle]
      read := List.nil_prefix
      order := by simp [pending, hl, idle]
      complete := by simp [pending, hl, idle]
      client := by simp [idle]
      server := by simp [idle] }
  unfold start
  split
  · exact hidle [] rfl (by simp)
  next m _ => exact hidle [.requestExtensions m] rfl (by simp)
  next e he =>
    refine (hidle [] rfl (by simp)).of_same (by simp [idle]) rfl rfl rfl rfl (fun _ h => h) id id ?_
      (by simp [idle])
    intro hleft
    obtain rfl := Option.some.inj hleft
    obtain ⟨id, hid⟩ := setup_eq p
    rw [hid] at he
    simp only [Extensions.setupRequest] at he
    split at he
    · cases he
    · split at he
      · cases he
      · assumption

theorem serverReads_attributed (hc : p.crate.Lawful) (ho : Orderly p s) (h : Attributed p s) :
    Attributed p (serverReads p s) := by
  unfold serverReads
  split
  · exact h
  next hleft _ =>
    split
    · exact h
    · exact h.of_same (fun _ _ => id) rfl rfl rfl rfl (fun _ => id) id id h.client (by simp)
  next m rest hleft hq =>
    have hframes : ∀ n tlvs, .submitShares n tlvs ∈ rest → .submitShares n tlvs ∈ s.toServer := by
      intro n tlvs hmem
      rw [hq]
      exact List.mem_cons_of_mem _ hmem
    have hshares : sharesOf p.crate rest = sharesOf p.crate s.toServer := by simp [sharesOf, hq]
    have hans := answer_answered p s.serverNegotiated m
    have hstay : (answer p s.serverNegotiated m).left ≠ some .parserError := by
      generalize answer p s.serverNegotiated m = r at hans
      cases hans with
      | shutdown stored => simp
      | success id hne hreq => simp
      | nothing id hnone hreq => simp
      | missing id hmiss =>
        unfold onMissing
        split
        · simp
        · simp
    simp only [sendReply]
    split
    · exact h.of_same hframes rfl hshares rfl rfl (fun _ => id) id id h.client hstay
    · split
      · exact h.of_same hframes rfl hshares rfl rfl (fun _ => id) id id h.client hstay
      · exact h.of_same hframes rfl hshares rfl rfl (fun _ => id) id id h.client (by simp)
  next n tlvs rest hleft hq =>
    have hund : Understood p.crate s.clientNegotiated tlvs :=
      h.frames n tlvs (by rw [hq]; exact List.mem_cons_self)
    obtain ⟨fields, hparse, hfields⟩ := (understood_server ho hund).parsed hc
    have hpending : ∀ s' : Session, s'.toServer = rest →
        s'.toManager = s.toManager ++ [(n, fields)] → pending p.crate s' = pending p.crate s := by
      intro s' hs hm
      simp [pending, sharesOf, hs, hm, hq, hfields]
    rw [hparse]
    exact {
      frames := fun n' tlvs' hmem => h.frames n' tlvs' (by rw [hq]; exact List.mem_cons_of_mem _ hmem)
      queued := by
        intro e he
        rcases List.mem_append.mp he with he | he
        · exact h.queued e he
        · rw [List.mem_singleton.mp he, hfields]
          exact hund
      read := h.read
      order := by
        intro hr
        rw [hpending _ rfl rfl]
        exact h.order hr
      complete := by
        intro hr hcon
        rw [hpending _ rfl rfl]
        exact h.complete hr hcon
      client := h.client
      server := h.server }

theorem managerReads_attributed (ho : Orderly p s) (h : Attributed p s) :
    Attributed p (managerReads p s) := by
  unfold managerReads
  split
  · exact h
  next n fields rest hq =>
    have hqueued : ∀ e ∈ rest, Understood p.crate s.clientNegotiated (e.2.getD []) := by
      intro e he
      exact h.queued e (by rw [hq]; exact List.mem_cons_of_mem _ he)
    split
    next hreg =>
      have hund := understood_server ho (h.queued (n, fields) (by rw [hq]; exact List.mem_cons_self))
      have hmove : s.read ++ [(n, readUserIdentity p.crate s.serverNegotiated fields)] ++
          pending p.crate { s with toManager := rest } = s.read ++ pending p.crate s := by
        simp [pending, hq, hund.read]
      exact {
        frames := h.frames
        queued := hqueued
        read := by
          apply List.IsPrefix.trans _ (h.order hreg)
          rw [← hmove]
          exact List.prefix_append _ _
        order := by
          intro _
          exact hmove ▸ h.order hreg
        complete := by
          intro _ hcon
          exact hmove.trans (h.complete hreg hcon)
        client := h.client
        server := h.server }
    next hreg =>
      exact {
        frames := h.frames
        queued := hqueued
        read := h.read
        order := fun hr => absurd hr hreg
        complete := fun hr => absurd hr hreg
        client := h.client
        server := h.server }

theorem onSuccess_error {m : RequestExtensionsSuccess} {e : ClientLeave}
    (h : onSuccess p m = .error e) : e ≠ .shutdown := by
  have key : ∀ tooFew, extensionsSuccess tooFew p.clientRequired m = .error e → e ≠ .shutdown := by
    intro tooFew hm
    simp only [extensionsSuccess] at hm
    split at hm
    · obtain rfl := Except.error.inj hm
      simp
    · cases hm
  unfold onSuccess at h
  split at h
  · exact key _ h
  · exact key _ h

theorem onError_error {m : RequestExtensionsError} {e : ClientLeave}
    (h : onError p m = .error e) : e ≠ .shutdown := by
  simp only [onError, handleRequestExtensionsError] at h
  split at h
  · obtain rfl := Except.error.inj h
    simp
  · split at h
    · split at h
      · obtain rfl := Except.error.inj h
        simp
      · split at h
        · cases h
        · obtain rfl := Except.error.inj h
          simp
    · cases h

theorem clientReads_attributed (ho : Orderly p s) (h : Attributed p s) :
    Attributed p (clientReads p s) := by
  unfold clientReads
  split
  · exact h
  · split
    · exact h
    · exact h.of_same (fun _ _ => id) rfl rfl rfl rfl (fun _ => id) id id (by simp) h.server
  next m rest hleft hq =>
    obtain ⟨_, _, hcn, _⟩ := ho.reply_alone hq
    split
    · refine h.of_same (fun _ _ => id) rfl rfl rfl rfl ?_ id id h.client h.server
      -- nothing was negotiated before, so no name is on its way
      intro tlvs hund
      cases hund with
      | none => exact .none
      | name ht hneg => simp [hcn] at hneg
    next e he =>
      refine h.of_same (fun _ _ => id) rfl rfl rfl rfl (fun _ => id) id id ?_ h.server
      intro hshut
      exact absurd (Option.some.inj hshut) (onSuccess_error he)
  next m rest hleft hq =>
    split
    · exact h.of_same (fun _ _ => id) rfl rfl rfl rfl (fun _ => id) id id h.client h.server
    next m' _ =>
      unfold sendToServer
      split
      · refine h.of_same ?_ rfl ?_ rfl rfl (fun _ => id) id id h.client h.server
        · intro n tlvs hmem
          simpa using hmem
        · simp [sharesOf]
      · exact h.of_same (fun _ _ => id) rfl rfl rfl rfl (fun _ => id) id id h.client h.server
    next e he =>
      refine h.of_same (fun _ _ => id) rfl rfl rfl rfl (fun _ => id) id id ?_ h.server
      intro hshut
      exact absurd (Option.some.inj hshut) (onError_error he)

theorem submit_attributed (hc : p.crate.Lawful) (h : Attributed p s) (n : Nat)
    (name : Option String) : Attributed p (submit p s n name) := by
  unfold submit
  split
  · exact h
  · obtain ⟨attached, tlvs, hshare, hund, hname⟩ := shareTlvs_understood hc s name
    rw [hshare]
    simp only [sendToServer]
    split
    next hcon =>
      have hpending : ∀ s' : Session, s'.toServer = s.toServer ++ [.submitShares n tlvs] →
          s'.toManager = s.toManager → s.registered = true →
          s.read ++ pending p.crate s' = s.sent ++ [(n, attached)] := by
        intro s' hs hm hr
        rw [← h.complete hr hcon]
        simp [pending, sharesOf, hs, hm, hname]
      exact {
        frames := by
          intro n' tlvs' hmem
          rcases List.mem_append.mp hmem with hmem | hmem
          · exact h.frames n' tlvs' hmem
          · obtain ⟨_, rfl⟩ := ClientFrame.submitShares.inj (List.mem_singleton.mp hmem)
            exact hund
        queued := h.queued
        read := h.read.trans (List.prefix_append _ _)
        order := by
          intro hr
          refine ⟨[], ?_⟩
          rw [List.append_nil]
          exact hpending _ rfl rfl hr
        complete := fun hr _ => hpending _ rfl rfl hr
        client := h.client
        server := h.server }
    next hcon =>
      exact {
        frames := h.frames
        queued := h.queued
        read := h.read.trans (List.prefix_append _ _)
        order := fun hr => (h.order hr).trans (List.prefix_append _ _)
        complete := fun _ hc' => absurd hc' hcon
        client := h.client
        server := h.server }

theorem step_attributed (hc : p.crate.Lawful) (ho : Orderly p s) (h : Attributed p s)
    (a : Action) : Attributed p (step p s a) := by
  cases a with
  | serverReads => exact serverReads_attributed hc ho h
  | managerReads => exact managerReads_attributed ho h
  | clientReads => exact clientReads_attributed ho h
  | submit n name => exact submit_attributed hc h n name
  | hangUp i j =>
    exact {
      frames := fun n tlvs hmem => h.frames n tlvs (List.mem_of_mem_take hmem)
      queued := h.queued
      read := h.read
      order := by
        intro hr
        apply List.IsPrefix.trans _ (h.order hr)
        simp only [step, hangUp, pending, ← List.append_assoc]
        apply (List.prefix_append_right_inj _).mpr
        exact (List.take_prefix _ _).filterMap _
      complete := by simp [step, hangUp]
      client := h.client
      server := h.server }
  | remove =>
    simp only [step]
    split
    · exact {
        frames := h.frames
        queued := h.queued
        read := h.read
        order := by simp
        complete := by simp
        client := h.client
        server := h.server }
    · exact h

/-- The server handles the shares in the order in which they were sent, each with the name that was
    attached to it; once nothing is on its way it has handled them all.  No name is too long to be
    sent, and no field is refused. -/
theorem names_read (p : Parties) (hc : p.crate.Lawful) (as : List Action) :
    (after p as).read <+: (after p as).sent ∧
    ((after p as).registered = true → (after p as).connected = true →
      (after p as).toServer = [] → (after p as).toManager = [] →
      (after p as).read = (after p as).sent) ∧
    ((after p as).clientLeft = some .shutdown → 2 ^ 16 ≤ p.clientRequired.length) ∧
    (after p as).serverLeft ≠ some .parserError := by
  have hrun := Runs.run_invariant (fun s => Orderly p s ∧ Attributed p s)
    (fun _ a hs => ⟨step_orderly hs.1 a, step_attributed hc hs.1 hs.2 a⟩)
    ⟨start_orderly, start_attributed⟩ as
  obtain ⟨_, hat⟩ := hrun
  refine ⟨hat.read, ?_, ?_, hat.server⟩
  · intro hr hcon hserver hmanager
    have hall : (after p as).read ++ pending p.crate (after p as) = (after p as).sent :=
      hat.complete hr hcon
    rw [pending, hserver, hmanager] at hall
    simpa [sharesOf] using hall
  · intro hleft
    by_contra hlt
    have hnone := hat.client hleft
    rw [seq064K_of_lt (by omega)] at hnone
    cases hnone

/-- The first share is sent before the negotiation is over, the second one after it. -/
def twoShares : List Action :=
  [.submit 1 (some "rig"), .serverReads, .clientReads, .submit 2 (some "rig"), .serverReads,
    .serverReads, .managerReads, .managerReads]

theorem names_read_twoShares :
    (after workerNameParties twoShares).read = (after workerNameParties twoShares).sent :=
  (names_read workerNameParties plainCrate_lawful twoShares).2.1 (by decide +kernel)
    (by decide +kernel) (by decide +kernel) (by decide +kernel)

example : (after workerNameParties twoShares).sent = [(1, none), (2, some "rig")] := by
  decide +kernel

end Session

end Sv2Apps.Extensions
