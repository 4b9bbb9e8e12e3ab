/-
  BitcoinCore/SolutionArchive.lean
  ================================
  **Every archived block was accepted** — `submit_solution` and `archive_solution` of
  `template_data.rs`, on top of the tasks of `TemplateDistribution.lean` (`archived_solutions`).

  A `SubmitSolution` is handled by the task of incoming messages, which waits for Bitcoin Core's verdict;
  an accepted solution starts a detached task that rebuilds the block and writes it to the solutions
  directory.  Such tasks run in any order with all the others, each from one `await` to the next; one
  that is waiting may stop once the global token is cancelled.

  What Bitcoin Core answers is arbitrary, and a write may fail halfway.
-/
import Sv2Apps.BitcoinCore.Blocks
import Sv2Apps.BitcoinCore.TemplateRequests
import Sv2Apps.Lib.MerkleBranch

namespace Sv2Apps.BitcoinCore.SolutionArchive

open Bitcoin ByteCodec TemplateDistribution

/-! ## A solution of a template -/

structure SubmitSolution where
  templateId : TemplateId
  version : UInt32
  ntime : UInt32
  nonce : UInt32
  coinbaseTx : Bytes
deriving DecidableEq

/-- What ends an archive: the errors of `TemplateDataError`, and an index out of range. -/
inductive ArchiveFault where
  | invalidSolution
  | invalidSolutionPoW (e : ValidationError)
  | invalidTemplateBlock
  | panic
deriving DecidableEq

/-- The check of `archive_solution` on the coinbase. -/
def validateCoinbase (t : TemplateData) (coinbaseTx : Transaction) : Bool :=
  coinbaseTx.version = t.coinbaseTx.version &&
  coinbaseTx.lockTime = t.coinbaseTx.lockTime &&
  match coinbaseTx.input with
  | [i] =>
    i.sequence = t.coinbaseTx.sequence && i.witness = t.coinbaseTx.witness &&
      i.previousOutput = OutPoint.null
  | _ => false

/-- The siblings are hashed as the bytes that Bitcoin Core sent. -/
def solutionMerkleRoot (rb : RustBitcoin) (t : TemplateData) (coinbaseTx : Transaction) : Hash256 :=
  t.merklePath.foldl (fun currentHash sibling => rb.sha256d (currentHash.val ++ sibling))
    (rb.computeTxid coinbaseTx)

def solutionHeader (rb : RustBitcoin) (t : TemplateData) (m : SubmitSolution)
    (coinbaseTx : Transaction) : Header where
  version := m.version
  prevBlockhash := t.header.prevBlockhash
  merkleRoot := solutionMerkleRoot rb t coinbaseTx
  time := m.ntime
  bits := t.header.bits
  nonce := m.nonce

/-- `archive_solution` up to its first wait. -/
def validateSolution (rb : RustBitcoin) (t : TemplateData) (m : SubmitSolution)
    (coinbaseTx : Transaction) : Except ArchiveFault Header :=
  if !validateCoinbase t coinbaseTx then .error .invalidSolution
  else
    let header := solutionHeader rb t m coinbaseTx
    match header.validatePow rb header.target with
    | .error e => .error (.invalidSolutionPoW e)
    | .ok _ => .ok header

theorem validateSolution_eq_ok {rb : RustBitcoin} {t : TemplateData} {m : SubmitSolution}
    {coinbaseTx : Transaction} {header : Header} :
    validateSolution rb t m coinbaseTx = .ok header ↔
      validateCoinbase t coinbaseTx = true ∧ header = solutionHeader rb t m coinbaseTx ∧
        ofLe (header.blockHash rb).val ≤ header.target := by
  unfold validateSolution
  cases hcoinbase : validateCoinbase t coinbaseTx with
  | false => simp
  | true =>
    simp only [Bool.not_true, Bool.false_eq_true, if_false, true_and]
    split
    next e hpow =>
      constructor
      · intro hok
        cases hok
      · rintro ⟨rfl, hmet⟩
        rw [Header.validatePow_target.mpr ⟨rfl, hmet⟩] at hpow
        cases hpow
    next hash hpow =>
      have hmet := (Header.validatePow_target.mp hpow).2
      constructor
      · intro hok
        cases hok
        exact ⟨rfl, hmet⟩
      · rintro ⟨rfl, -⟩
        rfl

theorem mapM_toU256 {path : List Bytes} {hashes : List Hash256}
    (h : path.mapM toU256 = some hashes) : path = hashes.map Subtype.val := by
  induction path generalizing hashes with
  | nil =>
    cases h
    rfl
  | cons b path ih =>
    simp only [List.mapM_cons, Option.pure_def, Option.bind_eq_bind, Option.bind_eq_some_iff,
      Option.some.injEq] at h
    obtain ⟨hash, hhash, rest, hrest, rfl⟩ := h
    unfold toU256 at hhash
    split at hhash
    · cases hhash
      exact congrArg (b :: ·) (ih hrest)
    · cases hhash

/-- The root is folded from the path that the template was announced with. -/
theorem solutionMerkleRoot_eq (rb : RustBitcoin) (p : Publication) (coinbaseTx : Transaction) :
    solutionMerkleRoot rb p.template coinbaseTx =
      p.newTemplate.merklePath.foldl rb.merkleNode (rb.computeTxid coinbaseTx) := by
  have hpath : p.template.merklePath = p.newTemplate.merklePath.map Subtype.val := by
    have hmade := p.made
    unfold TemplateData.getNewTemplateMessage at hmade
    simp only [Option.bind_eq_bind, Option.bind_eq_some_iff] at hmade
    obtain ⟨_, -, _, -, _, -, _, -, path, hpath, hmade⟩ := hmade
    rw [← Option.some.inj hmade]
    unfold TemplateData.getMerklePath at hpath
    split at hpath
    · cases hpath
    next hashes hhashes =>
      split at hpath
      · cases hpath
        exact mapM_toU256 hhashes
      · cases hpath
  unfold solutionMerkleRoot
  rw [hpath]
  exact List.foldl_map

/-- The block of the template with the solution's coinbase and header. -/
def solutionBlock (lib : BlockLibrary) (coinbaseTx : Transaction) (header : Header)
    (templateBlock : Bytes) : Except ArchiveFault Block :=
  match lib.deserializeBlock templateBlock with
  | none => .error .invalidTemplateBlock
  | some ⟨_, []⟩ => .error .panic
  | some ⟨_, _ :: others⟩ => .ok ⟨header, coinbaseTx :: others⟩

theorem solutionBlock_eq_ok {lib : BlockLibrary} {coinbaseTx : Transaction} {header : Header}
    {templateBlock : Bytes} {b : Block}
    (h : solutionBlock lib coinbaseTx header templateBlock = .ok b) :
    ∃ answered c others, lib.deserializeBlock templateBlock = some answered ∧
      answered.txdata = c :: others ∧ b = ⟨header, coinbaseTx :: others⟩ := by
  unfold solutionBlock at h
  split at h
  · cases h
  · cases h
  next hanswered =>
    cases h
    exact ⟨_, _, _, hanswered, rfl, rfl⟩

/-! ## Archives in progress -/

/-- How `File::create` and `write_all` end. -/
inductive Write where
  | done
  | createFailed
  /-- So many bytes were written. -/
  | failed (written : Nat)
deriving DecidableEq

/-- The solutions directory, by block hash. -/
abbrev Solutions := KeyMap Hash256 Bytes

def Write.apply (w : Write) (dir : Solutions) (name : Hash256) (bytes : Bytes) : Solutions :=
  match w with
  | .done => dir.insert name bytes
  | .createFailed => dir
  | .failed written => dir.insert name (bytes.take written)

theorem Write.lookup_apply {w : Write} {dir : Solutions} {name hash : Hash256} {bytes file : Bytes}
    (h : (w.apply dir name bytes).lookup hash = some file) :
    dir.lookup hash = some file ∨
      hash = name ∧ file <+: bytes ∧ ((∀ written, w ≠ .failed written) → file = bytes) := by
  cases w with
  | createFailed => exact Or.inl h
  | done =>
    rw [Write.apply, KeyMap.lookup_insert_eq] at h
    split at h
    next hname =>
      cases h
      exact Or.inr ⟨hname, List.prefix_rfl, fun _ => rfl⟩
    next => exact Or.inl h
  | failed written =>
    rw [Write.apply, KeyMap.lookup_insert_eq] at h
    split at h
    next hname =>
      cases h
      exact Or.inr ⟨hname, List.take_prefix _ _, fun hwhole => absurd rfl (hwhole written)⟩
    next => exact Or.inl h

/-- A write adds one file at most. -/
theorem Write.length_keys_apply (w : Write) (dir : Solutions) (name : Hash256) (bytes : Bytes) :
    (w.apply dir name bytes).keys.length ≤ dir.keys.length + 1 := by
  have hinsert : ∀ file, (dir.insert name file).keys.length ≤ dir.keys.length + 1 := by
    intro file
    rw [AList.keys_insert, List.length_cons]
    exact Nat.succ_le_succ List.length_erase_le
  cases w with
  | createFailed => exact Nat.le_succ _
  | done => exact hinsert _
  | failed written => exact hinsert _

inductive ArchiveAnswer where
  /-- The task is polled for the first time, or its thread client is there. -/
  | done
  | failed
  /-- The answer to `getBlock`, and what becomes of the file. -/
  | block (templateBlock : Bytes) (w : Write)
  /-- A cancelled token is seen. -/
  | cancelled
deriving DecidableEq

inductive ArchiveState where
  | starting
  | makingThread (header : Header)
  | gettingBlock (header : Header)

/-- The header that has passed the checks. -/
def ArchiveState.header? : ArchiveState → Option Header
  | .starting => none
  | .makingThread header | .gettingBlock header => some header

/-- A task of `dump_solution_to_disk`, with its clone of the template. -/
structure ArchiveTask where
  id : TaskId
  template : TemplateData
  solution : SubmitSolution
  coinbaseTx : Transaction
  state : ArchiveState

namespace ArchiveTask

/-- The directory, and what the task does next; it ends with `none`.  `run_until_cancelled` looks at
    the token before the first poll, and afterwards only when the archive has to wait. -/
def step (lib : BlockLibrary) (cancelled : Bool) (k : ArchiveTask) (dir : Solutions)
    (a : ArchiveAnswer) : Solutions × Option ArchiveState :=
  match k.state, a with
  | .starting, .done =>
    if cancelled then (dir, none)
    else match validateSolution lib.rb k.template k.solution k.coinbaseTx with
      | .error _ => (dir, none)
      | .ok header => (dir, some (.makingThread header))
  | .starting, _ => (dir, some .starting)
  | .makingThread header, .done => (dir, some (.gettingBlock header))
  | .gettingBlock header, .block templateBlock w =>
    match solutionBlock lib k.coinbaseTx header templateBlock with
    | .error _ => (dir, none)
    | .ok b => (w.apply dir (b.header.blockHash lib.rb) b.encode, none)
  | _, .failed => (dir, none)
  | st, .cancelled => (dir, if cancelled then none else some st)
  | st, _ => (dir, some st)

/-- The block that Bitcoin Core answers with. -/
def received (lib : BlockLibrary) (k : ArchiveTask) (a : ArchiveAnswer) : List (TemplateId × Block) :=
  match k.state, a with
  | .gettingBlock _, .block templateBlock _ =>
    (lib.deserializeBlock templateBlock).toList.map (k.solution.templateId, ·)
  | _, _ => []

/-- A step leaves the directory as it is, and goes on with a header that passed the checks; or the
    block is written and the task ends. -/
theorem step_cases {lib : BlockLibrary} {cancelled : Bool} {k : ArchiveTask} {dir dir' : Solutions}
    {a : ArchiveAnswer} {next : Option ArchiveState} (h : k.step lib cancelled dir a = (dir', next)) :
    (dir' = dir ∧ ∀ st, next = some st → ∀ header, st.header? = some header →
        k.state.header? = some header ∨
          validateSolution lib.rb k.template k.solution k.coinbaseTx = .ok header) ∨
      next = none ∧ ∃ header templateBlock w b, k.state = .gettingBlock header ∧
        a = .block templateBlock w ∧ solutionBlock lib k.coinbaseTx header templateBlock = .ok b ∧
        dir' = w.apply dir (b.header.blockHash lib.rb) b.encode := by
  unfold step at h
  split at h
  · split at h
    · cases h
      exact Or.inl ⟨rfl, nofun⟩
    · split at h
      · cases h
        exact Or.inl ⟨rfl, nofun⟩
      next hvalid =>
        cases h
        refine Or.inl ⟨rfl, ?_⟩
        intro st hst header hheader
        cases hst
        cases hheader
        exact Or.inr hvalid
  · cases h
    refine Or.inl ⟨rfl, ?_⟩
    intro st hst header hheader
    cases hst
    cases hheader
  next hstate =>
    cases h
    refine Or.inl ⟨rfl, ?_⟩
    intro st hst header hheader
    cases hst
    cases hheader
    rw [hstate]
    exact Or.inl rfl
  next header templateBlock w hstate =>
    split at h
    · cases h
      exact Or.inl ⟨rfl, nofun⟩
    next b hb =>
      cases h
      exact Or.inr ⟨rfl, header, templateBlock, w, b, hstate, rfl, hb, rfl⟩
  · cases h
    exact Or.inl ⟨rfl, nofun⟩
  · cases h
    refine Or.inl ⟨rfl, ?_⟩
    intro st hst header hheader
    split at hst
    · cases hst
    · cases hst
      exact Or.inl hheader
  · cases h
    refine Or.inl ⟨rfl, ?_⟩
    intro st hst header hheader
    cases hst
    exact Or.inl hheader

end ArchiveTask

/-! ## The system -/

structure State where
  tdp : TemplateDistribution.State
  /-- The solution that Bitcoin Core is asked about, with its decoded coinbase. -/
  submitting : Option (TemplateData × SubmitSolution × Transaction)
  archives : List ArchiveTask
  nextArchive : TaskId
  solutions : Solutions
  /-- The solutions that Bitcoin Core accepted; no task reads this or what follows. -/
  accepted : List SubmitSolution
  /-- The blocks that it answered with, by template. -/
  templateBlocks : List (TemplateId × Block)

namespace State

def new (maxSameTipTemplates : Option Nat) : State where
  tdp := .new maxSameTipTemplates
  submitting := none
  archives := []
  nextArchive := 0
  solutions := ∅
  accepted := []
  templateBlocks := []

/-- `handle_submit_solution` up to the wait; without a directory or a coinbase there is none. -/
def submitSolution (lib : BlockLibrary) (s : State) (m : SubmitSolution) (dirReady : Bool) : State :=
  let tdp := s.tdp.step (.incoming (.recv (.submitSolution m.templateId)))
  match s.tdp.incoming, tdp.incoming with
  | .idle, .submitting t =>
    match if dirReady then lib.deserializeTransaction m.coinbaseTx else none with
    | none => { s with tdp := tdp.step (.incoming .failed) }
    | some coinbaseTx => { s with tdp := tdp, submitting := some (t, m, coinbaseTx) }
  | _, _ => { s with tdp := tdp }

/-- Bitcoin Core's verdict; with `none` the request failed. -/
def submitResult (s : State) (result : Option Bool) : State :=
  match s.submitting with
  | none => s
  | some (t, m, coinbaseTx) =>
    if result = some true then
      { s with
        tdp := s.tdp.step (.incoming .done)
        submitting := none
        archives := s.archives ++ [⟨s.nextArchive, t, m, coinbaseTx, .starting⟩]
        nextArchive := s.nextArchive + 1
        accepted := s.accepted ++ [m] }
    else { s with tdp := s.tdp.step (.incoming .failed), submitting := none }

/-- Everything but solutions; a handler that is waiting for a verdict can only be cancelled. -/
def stepTdp (s : State) (e : TemplateDistribution.State.Event) : State :=
  match e, s.submitting with
  | .incoming (.recv (.submitSolution _)), _ => s
  | .incoming .cancelled, some _ =>
    if s.tdp.shared.globalCancelled then { s with tdp := s.tdp.step e, submitting := none } else s
  | .incoming _, some _ => s
  | e, _ => { s with tdp := s.tdp.step e }

def endArchive (s : State) (id : TaskId) : State :=
  { s with archives := s.archives.filter fun k => k.id ≠ id }

def setArchive (s : State) (id : TaskId) (st : ArchiveState) : State :=
  { s with archives := s.archives.map fun k => if k.id = id then { k with state := st } else k }

/-- One poll of an archive. -/
def stepArchive (lib : BlockLibrary) (s : State) (id : TaskId) (a : ArchiveAnswer) : State :=
  match s.archives.find? (·.id = id) with
  | none => s
  | some k =>
    let s := { s with templateBlocks := s.templateBlocks ++ k.received lib a }
    match k.step lib s.tdp.shared.globalCancelled s.solutions a with
    | (dir, none) => { s with solutions := dir }.endArchive id
    | (dir, some st) => { s with solutions := dir }.setArchive id st

inductive Event where
  | tdp (e : TemplateDistribution.State.Event)
  | submitSolution (m : SubmitSolution) (dirReady : Bool)
  | submitResult (result : Option Bool)
  | archive (id : TaskId) (a : ArchiveAnswer)
deriving DecidableEq

def step (lib : BlockLibrary) (s : State) : Event → State
  | .tdp e => s.stepTdp e
  | .submitSolution m dirReady => s.submitSolution lib m dirReady
  | .submitResult result => s.submitResult result
  | .archive id a => s.stepArchive lib id a

/-- The state after `es`. -/
def after (lib : BlockLibrary) (maxSameTipTemplates : Option Nat) (es : List Event) : State :=
  Runs.run (step lib) (new maxSameTipTemplates) es

namespace Event

/-- The step does not leave half a file behind. -/
def writesWhole : Event → Bool
  | .archive _ (.block _ (.failed _)) => false
  | _ => true

/-- The archive that is polled. -/
def archive? : Event → Option TaskId
  | .archive id _ => some id
  | _ => none

end Event

end State

/-! ## The block of a solution -/

variable {lib : BlockLibrary} {whole : Prop} {maxSameTipTemplates : Option Nat} {s s' : State}

/-- A block made of a published template, of an accepted solution of it, and of what Bitcoin Core
    answered about the template. -/
structure Solved (lib : BlockLibrary) (s : State) (p : Publication) (m : SubmitSolution)
    (b : Block) : Prop where
  published : p ∈ s.tdp.shared.published
  accepted : m ∈ s.accepted
  ofTemplate : p.template.templateId = m.templateId
  made : ∃ coinbaseTx answered c others, lib.deserializeTransaction m.coinbaseTx = some coinbaseTx ∧
    (m.templateId, answered) ∈ s.templateBlocks ∧ answered.txdata = c :: others ∧
    validateSolution lib.rb p.template m coinbaseTx = .ok b.header ∧ b.txdata = coinbaseTx :: others

/-- What an archive is begun with. -/
structure Due (lib : BlockLibrary) (s : State) (t : TemplateData) (m : SubmitSolution)
    (coinbaseTx : Transaction) : Prop where
  published : ∃ p ∈ s.tdp.shared.published, p.template = t.unretired
  ofTemplate : t.templateId = m.templateId
  coinbase : lib.deserializeTransaction m.coinbaseTx = some coinbaseTx

/-- Nothing that is kept count of is forgotten. -/
structure Grows (s s' : State) : Prop where
  published : s.tdp.shared.published ⊆ s'.tdp.shared.published
  accepted : s.accepted ⊆ s'.accepted
  templateBlocks : s.templateBlocks ⊆ s'.templateBlocks

theorem Solved.mono {p : Publication} {m : SubmitSolution} {b : Block} (h : Solved lib s p m b)
    (hgrows : Grows s s') : Solved lib s' p m b := by
  obtain ⟨coinbaseTx, answered, c, others, hcoinbase, hanswered, hmade⟩ := h.made
  exact ⟨hgrows.published h.published, hgrows.accepted h.accepted, h.ofTemplate, coinbaseTx, answered,
    c, others, hcoinbase, hgrows.templateBlocks hanswered, hmade⟩

theorem Due.mono {t : TemplateData} {m : SubmitSolution} {coinbaseTx : Transaction}
    (h : Due lib s t m coinbaseTx) (hgrows : Grows s s') : Due lib s' t m coinbaseTx := by
  obtain ⟨p, hp, htemplate⟩ := h.published
  exact ⟨⟨p, hgrows.published hp, htemplate⟩, h.ofTemplate, h.coinbase⟩

/-- The root of the header is that of the transactions, if the path that the template was announced
    with is the one of Bitcoin Core's block. -/
theorem root_of_solution {rb : RustBitcoin} {p : Publication} {m : SubmitSolution}
    {answered b : Block} {c coinbaseTx : Transaction} {others : List Transaction}
    (hheader : b.header = solutionHeader rb p.template m coinbaseTx)
    (htxdata : answered.txdata = c :: others) (hb : b.txdata = coinbaseTx :: others)
    (hpath : p.newTemplate.merklePath =
      MerkleBranch.branch rb.merkleNode (answered.txdata.map rb.computeTxid)) :
    MerkleBranch.root rb.merkleNode (b.txdata.map rb.computeTxid) = some b.header.merkleRoot := by
  have hroot : b.header.merkleRoot = solutionMerkleRoot rb p.template coinbaseTx := by
    rw [hheader]
    rfl
  rw [hroot, solutionMerkleRoot_eq, hpath, htxdata, hb, List.map_cons, List.map_cons,
    MerkleBranch.foldl_branch, MerkleBranch.branch_congr _ _ (rb.computeTxid c)]

/-! ## The invariant -/

/-- A file is the block of a solution, or the beginning of it. -/
def Backed (lib : BlockLibrary) (whole : Prop) (s : State) (hash : Hash256) (file : Bytes) : Prop :=
  ∃ p m b, Solved lib s p m b ∧ hash = b.header.blockHash lib.rb ∧ file <+: b.encode ∧
    (whole → file = b.encode)

theorem Backed.mono {hash : Hash256} {file : Bytes} (h : Backed lib whole s hash file)
    (hgrows : Grows s s') : Backed lib whole s' hash file := by
  obtain ⟨p, m, b, hsolved, hrest⟩ := h
  exact ⟨p, m, b, hsolved.mono hgrows, hrest⟩

/-- An archive of an accepted solution. -/
structure Begun (lib : BlockLibrary) (s : State) (k : ArchiveTask) : Prop where
  due : Due lib s k.template k.solution k.coinbaseTx
  accepted : k.solution ∈ s.accepted
  checked : ∀ header, k.state.header? = some header →
    validateSolution lib.rb k.template k.solution k.coinbaseTx = .ok header

theorem Begun.mono {k : ArchiveTask} (h : Begun lib s k) (hgrows : Grows s s') : Begun lib s' k :=
  ⟨h.due.mono hgrows, hgrows.accepted h.accepted, h.checked⟩

structure ArchiveInv (lib : BlockLibrary) (whole : Prop) (maxSameTipTemplates : Option Nat)
    (s : State) : Prop where
  reached : ∃ es, s.tdp = TemplateDistribution.State.after maxSameTipTemplates es
  submitting : ∀ t m coinbaseTx, s.submitting = some (t, m, coinbaseTx) → Due lib s t m coinbaseTx
  archives : ∀ k ∈ s.archives, Begun lib s k
  ids : (s.archives.map (·.id)).Nodup
  fresh : ∀ k ∈ s.archives, k.id < s.nextArchive
  solutions : ∀ hash file, s.solutions.lookup hash = some file → Backed lib whole s hash file
  count : s.solutions.keys.length + s.archives.length ≤ s.accepted.length

namespace ArchiveInv

theorem new : ArchiveInv lib whole maxSameTipTemplates (.new maxSameTipTemplates) where
  reached := ⟨[], rfl⟩
  submitting := nofun
  archives := nofun
  ids := List.nodup_nil
  fresh := nofun
  solutions := nofun
  count := Nat.le_refl _

/-- The tasks around the archives take a step. -/
theorem stepped (h : ArchiveInv lib whole maxSameTipTemplates s)
    (e : TemplateDistribution.State.Event) {submitting : Option (TemplateData × SubmitSolution × Transaction)}
    (hsubmitting : ∀ t m coinbaseTx, submitting = some (t, m, coinbaseTx) →
      Due lib s t m coinbaseTx) :
    ArchiveInv lib whole maxSameTipTemplates
      { s with tdp := s.tdp.step e, submitting := submitting } := by
  obtain ⟨es, hes⟩ := h.reached
  have hpublished : s.tdp.shared.published ⊆ (s.tdp.step e).shared.published := by
    rw [hes]
    exact (Retention.published_grows ((tasks_after maxSameTipTemplates es).step_sound e).1).1
  have hgrows : Grows s { s with tdp := s.tdp.step e, submitting := submitting } :=
    ⟨hpublished, List.Subset.refl _, List.Subset.refl _⟩
  have hafter : TemplateDistribution.State.after maxSameTipTemplates (es ++ [e]) =
      (TemplateDistribution.State.after maxSameTipTemplates es).step e := Runs.run_append _ _ _ _
  refine ⟨⟨es ++ [e], (congrArg (·.step e) hes).trans hafter.symm⟩, ?_, ?_, h.ids, h.fresh, ?_,
    h.count⟩
  · intro t m coinbaseTx ht
    exact (hsubmitting t m coinbaseTx ht).mono hgrows
  · intro k hk
    exact (h.archives k hk).mono hgrows
  · intro hash file hfile
    exact (h.solutions hash file hfile).mono hgrows

theorem stepTdp (h : ArchiveInv lib whole maxSameTipTemplates s)
    (e : TemplateDistribution.State.Event) : ArchiveInv lib whole maxSameTipTemplates (s.stepTdp e) := by
  unfold State.stepTdp
  split
  · exact h
  · split
    · exact h.stepped _ nofun
    · exact h
  · exact h
  · exact h.stepped _ h.submitting

end ArchiveInv

/-- The template of a solution that is submitted is in store. -/
theorem templateDataFor_of_submitting {tdp : TemplateDistribution.State} (hidle : tdp.incoming = .idle)
    {id : TemplateId} {t : TemplateData}
    (h : (tdp.step (.incoming (.recv (.submitSolution id)))).incoming = .submitting t) :
    tdp.shared.templateDataFor id = some t := by
  simp only [TemplateDistribution.State.step, TemplateDistribution.State.stepIncoming, hidle,
    TemplateDistribution.State.handleMessage] at h
  split at h
  · cases h
  · split at h
    · rw [hidle] at h
      cases h
    next ht =>
      cases h
      exact ht

namespace ArchiveInv

theorem submitSolution (h : ArchiveInv lib whole maxSameTipTemplates s) (m : SubmitSolution)
    (dirReady : Bool) :
    ArchiveInv lib whole maxSameTipTemplates (s.submitSolution lib m dirReady) := by
  have hreceived := h.stepped (.incoming (.recv (.submitSolution m.templateId))) h.submitting
  unfold State.submitSolution
  dsimp only
  split
  next t hidle hsubmitting =>
    split
    · exact hreceived.stepped _ hreceived.submitting
    next coinbaseTx hcoinbase =>
      refine h.stepped _ ?_
      intro t' m' coinbaseTx' hsome
      cases hsome
      obtain ⟨es, hes⟩ := h.reached
      have hr := (retention_after maxSameTipTemplates es).1
      rw [← hes] at hr
      obtain ⟨hheld, hid⟩ := hr.templateDataFor_eq_some.mp
        (templateDataFor_of_submitting hidle hsubmitting)
      refine ⟨hr.held t hheld, hid, ?_⟩
      split at hcoinbase
      · exact hcoinbase
      · cases hcoinbase
  · exact hreceived

theorem submitResult (h : ArchiveInv lib whole maxSameTipTemplates s) (result : Option Bool) :
    ArchiveInv lib whole maxSameTipTemplates (s.submitResult result) := by
  unfold State.submitResult
  split
  · exact h
  next t m coinbaseTx hsubmitting =>
    split
    next =>
      have hstepped := h.stepped (.incoming .done) (fun _ _ _ (hnone : none = some _) => nomatch hnone)
      have hgrows : Grows { s with tdp := s.tdp.step (.incoming .done), submitting := none }
          { s with
            tdp := s.tdp.step (.incoming .done)
            submitting := none
            archives := s.archives ++ [⟨s.nextArchive, t, m, coinbaseTx, .starting⟩]
            nextArchive := s.nextArchive + 1
            accepted := s.accepted ++ [m] } :=
        ⟨List.Subset.refl _, List.subset_append_left _ _, List.Subset.refl _⟩
      refine ⟨hstepped.reached, nofun, ?_, ?_, ?_, ?_, ?_⟩
      · intro k hk
        rcases List.mem_append.mp hk with hk | hk
        · exact (hstepped.archives k hk).mono hgrows
        · rw [List.mem_singleton.mp hk]
          have hdue := (h.stepped (.incoming .done) h.submitting).submitting t m coinbaseTx hsubmitting
          exact ⟨⟨hdue.published, hdue.ofTemplate, hdue.coinbase⟩,
            List.mem_append_right _ (List.mem_singleton_self m), nofun⟩
      · rw [List.map_append, List.map_singleton, ← List.concat_eq_append]
        refine h.ids.concat ?_
        intro hmem
        obtain ⟨k, hk, hid⟩ := List.mem_map.mp hmem
        exact Nat.lt_irrefl _ (hid ▸ h.fresh k hk)
      · intro k hk
        rcases List.mem_append.mp hk with hk | hk
        · exact Nat.lt_succ_of_lt (h.fresh k hk)
        · rw [List.mem_singleton.mp hk]
          exact Nat.lt_succ_self _
      · intro hash file hfile
        exact (hstepped.solutions hash file hfile).mono hgrows
      · have hcount := h.count
        simp only [List.length_append, List.length_singleton]
        omega
    next => exact h.stepped _ nofun

/-- Bitcoin Core answers with blocks. -/
theorem heard (h : ArchiveInv lib whole maxSameTipTemplates s) (answered : List (TemplateId × Block)) :
    ArchiveInv lib whole maxSameTipTemplates
      { s with templateBlocks := s.templateBlocks ++ answered } := by
  have hgrows : Grows s { s with templateBlocks := s.templateBlocks ++ answered } :=
    ⟨List.Subset.refl _, List.Subset.refl _, List.subset_append_left _ _⟩
  refine ⟨h.reached, ?_, ?_, h.ids, h.fresh, ?_, h.count⟩
  · intro t m coinbaseTx ht
    exact (h.submitting t m coinbaseTx ht).mono hgrows
  · intro k hk
    exact (h.archives k hk).mono hgrows
  · intro hash file hfile
    exact (h.solutions hash file hfile).mono hgrows

theorem setArchive (h : ArchiveInv lib whole maxSameTipTemplates s) {k : ArchiveTask}
    (hk : k ∈ s.archives) {st : ArchiveState} (hst : ∀ header, st.header? = some header →
      validateSolution lib.rb k.template k.solution k.coinbaseTx = .ok header) :
    ArchiveInv lib whole maxSameTipTemplates (s.setArchive k.id st) := by
  have hgrows : Grows s (s.setArchive k.id st) :=
    ⟨List.Subset.refl _, List.Subset.refl _, List.Subset.refl _⟩
  refine ⟨h.reached, ?_, ?_, ?_, ?_, ?_, ?_⟩
  · intro t m coinbaseTx ht
    exact (h.submitting t m coinbaseTx ht).mono hgrows
  · intro k' hk'
    obtain ⟨k₀, hk₀, rfl⟩ := List.mem_map.mp hk'
    have hbegun := (h.archives k₀ hk₀).mono hgrows
    split
    next hid =>
      -- no other archive has that id
      have hsame := List.inj_on_of_nodup_map h.ids hk₀ hk hid
      subst hsame
      exact ⟨hbegun.due, hbegun.accepted, hst⟩
    next => exact hbegun
  · have hids : (s.setArchive k.id st).archives.map (·.id) = s.archives.map (·.id) := by
      unfold State.setArchive
      rw [List.map_map]
      refine List.map_congr_left ?_
      intro k₀ _
      dsimp only [Function.comp_apply]
      split <;> rfl
    rw [hids]
    exact h.ids
  · intro k' hk'
    obtain ⟨k₀, hk₀, rfl⟩ := List.mem_map.mp hk'
    split
    · exact h.fresh k₀ hk₀
    · exact h.fresh k₀ hk₀
  · intro hash file hfile
    exact (h.solutions hash file hfile).mono hgrows
  · unfold State.setArchive
    rw [List.length_map]
    exact h.count

/-- An archive ends, and leaves one file more at most. -/
theorem ended (h : ArchiveInv lib whole maxSameTipTemplates s) {k : ArchiveTask} (hk : k ∈ s.archives)
    {dir : Solutions} (hdir : ∀ hash file, dir.lookup hash = some file → Backed lib whole s hash file)
    (hlength : dir.keys.length ≤ s.solutions.keys.length + 1) :
    ArchiveInv lib whole maxSameTipTemplates ({ s with solutions := dir }.endArchive k.id) := by
  have hgrows : Grows s ({ s with solutions := dir }.endArchive k.id) :=
    ⟨List.Subset.refl _, List.Subset.refl _, List.Subset.refl _⟩
  refine ⟨h.reached, ?_, ?_, ?_, ?_, ?_, ?_⟩
  · intro t m coinbaseTx ht
    exact (h.submitting t m coinbaseTx ht).mono hgrows
  · intro k' hk'
    exact (h.archives k' (List.mem_filter.mp hk').1).mono hgrows
  · exact h.ids.sublist (List.filter_sublist.map _)
  · intro k' hk'
    exact h.fresh k' (List.mem_filter.mp hk').1
  · intro hash file hfile
    exact (hdir hash file hfile).mono hgrows
  · have hcount := h.count
    have hfewer : (s.archives.filter fun k' => k'.id ≠ k.id).length < s.archives.length :=
      List.length_filter_lt_length_iff_exists.mpr ⟨k, hk, by simp⟩
    show dir.keys.length + (s.archives.filter fun k' => k'.id ≠ k.id).length ≤ s.accepted.length
    omega

theorem stepArchive (h : ArchiveInv lib whole maxSameTipTemplates s) (id : TaskId) (a : ArchiveAnswer)
    (hwhole : whole → (State.Event.archive id a).writesWhole = true) :
    ArchiveInv lib whole maxSameTipTemplates (s.stepArchive lib id a) := by
  unfold State.stepArchive
  split
  · exact h
  next k hfound =>
    have hk := List.mem_of_find?_eq_some hfound
    have hid := List.find?_some hfound
    have hid : k.id = id := of_decide_eq_true hid
    subst hid
    have hheard := h.heard (k.received lib a)
    obtain ⟨hdue, haccepted, hheader⟩ := hheard.archives k hk
    dsimp only
    split
    next dir hstep =>
      rcases ArchiveTask.step_cases hstep with
        ⟨rfl, -⟩ | ⟨-, header, templateBlock, w, b, hstate, rfl, hb, rfl⟩
      · exact hheard.ended hk hheard.solutions (Nat.le_succ _)
      · refine hheard.ended hk ?_ (w.length_keys_apply _ _ _)
        intro hash file hfile
        rcases Write.lookup_apply hfile with hold | ⟨hname, hprefix, hall⟩
        · exact hheard.solutions hash file hold
        · obtain ⟨answered, c, others, hanswered, htxdata, rfl⟩ := solutionBlock_eq_ok hb
          obtain ⟨p, hp, htemplate⟩ := hdue.published
          refine ⟨p, k.solution, _, ⟨hp, haccepted, ?_, k.coinbaseTx, answered, c, others, hdue.coinbase,
            ?_, htxdata, ?_, rfl⟩, hname, hprefix, ?_⟩
          · rw [htemplate]
            exact hdue.ofTemplate
          · refine List.mem_append_right _ ?_
            unfold ArchiveTask.received
            rw [hstate]
            dsimp only
            rw [hanswered]
            exact List.mem_singleton_self _
          · rw [htemplate]
            exact hheader header (by rw [hstate]; rfl)
          · intro hw
            refine hall ?_
            rintro written rfl
            cases hwhole hw
    next dir st hstep =>
      rcases ArchiveTask.step_cases hstep with ⟨rfl, hnext⟩ | ⟨hnone, -⟩
      · refine hheard.setArchive hk ?_
        intro header hst
        rcases hnext st rfl header hst with hold | hvalid
        · exact hheader header hold
        · exact hvalid
      · cases hnone

theorem step (h : ArchiveInv lib whole maxSameTipTemplates s) (e : State.Event)
    (hwhole : whole → e.writesWhole = true) :
    ArchiveInv lib whole maxSameTipTemplates (s.step lib e) := by
  cases e with
  | tdp e => exact h.stepTdp e
  | submitSolution m dirReady => exact h.submitSolution m dirReady
  | submitResult result => exact h.submitResult result
  | archive id a => exact h.stepArchive id a hwhole

end ArchiveInv

theorem archiveInv_after (lib : BlockLibrary) (maxSameTipTemplates : Option Nat)
    (es : List State.Event) :
    ArchiveInv lib (∀ e ∈ es, e.writesWhole = true) maxSameTipTemplates
      (State.after lib maxSameTipTemplates es) := by
  refine Runs.run_invariant_of_guarded _ (fun s e h he => h.step e he) .new es ?_
  exact Runs.guarded_of_forall fun e he hwhole => hwhole e he

/-! ## An archive that is not interrupted -/

namespace State

theorem find?_setArchive (s : State) (other : TaskId) (st : ArchiveState) (id : TaskId) :
    (s.setArchive other st).archives.find? (·.id = id) =
      (s.archives.find? (·.id = id)).map fun k =>
        if k.id = other then { k with state := st } else k := by
  have hsame : (fun k : ArchiveTask => decide (k.id = id)) ∘
      (fun k => if k.id = other then { k with state := st } else k) = fun k => decide (k.id = id) := by
    funext k
    dsimp only [Function.comp_apply]
    split <;> rfl
  unfold setArchive
  rw [List.find?_map, hsame]

theorem id_of_find? {id : TaskId} {k : ArchiveTask} (hk : s.archives.find? (·.id = id) = some k) :
    k.id = id := by
  have hfound := List.find?_some hk
  exact of_decide_eq_true hfound

/-- The other events leave an archive as it is. -/
theorem find?_step {id : TaskId} {k : ArchiveTask} (hk : s.archives.find? (·.id = id) = some k)
    {e : Event} (he : e.archive? ≠ some id) : (s.step lib e).archives.find? (·.id = id) = some k := by
  cases e with
  | tdp e =>
    show (s.stepTdp e).archives.find? _ = _
    unfold stepTdp
    split
    · exact hk
    · split
      · exact hk
      · exact hk
    · exact hk
    · exact hk
  | submitSolution m dirReady =>
    show (s.submitSolution lib m dirReady).archives.find? _ = _
    unfold State.submitSolution
    dsimp only
    split
    · split
      · exact hk
      · exact hk
    · exact hk
  | submitResult result =>
    show (s.submitResult result).archives.find? _ = _
    unfold State.submitResult
    split
    · exact hk
    · split
      · rw [List.find?_append, hk]
        rfl
      · exact hk
  | archive other a =>
    have hother : other ≠ id := fun hsame => he (congrArg some hsame)
    show (s.stepArchive lib other a).archives.find? _ = _
    unfold State.stepArchive
    split
    · exact hk
    · dsimp only
      split
      · show (s.archives.filter fun k => k.id ≠ other).find? (·.id = id) = some k
        rw [List.find?_filter, ← hk]
        congr 1
        funext k'
        by_cases hk' : k'.id = id
        · simp [hk', Ne.symm hother]
        · simp [hk']
      next st hstep =>
        rw [find?_setArchive, hk, Option.map_some, if_neg]
        rw [id_of_find? hk]
        exact Ne.symm hother

theorem find?_run (lib : BlockLibrary) {id : TaskId} {k : ArchiveTask} {es : List Event}
    (hes : ∀ e ∈ es, e.archive? ≠ some id) (hk : s.archives.find? (·.id = id) = some k) :
    (Runs.run (step lib) s es).archives.find? (·.id = id) = some k := by
  induction es generalizing s with
  | nil => exact hk
  | cons e es ih =>
    exact ih (fun e' he' => hes e' (List.mem_cons_of_mem _ he'))
      (find?_step hk (hes e List.mem_cons_self))

/-- A step of an archive that goes on. -/
theorem find?_stepArchive (lib : BlockLibrary) {id : TaskId} {k : ArchiveTask} {a : ArchiveAnswer} {dir : Solutions}
    {st : ArchiveState} (hk : s.archives.find? (·.id = id) = some k)
    (hstep : k.step lib s.tdp.shared.globalCancelled s.solutions a = (dir, some st)) :
    (s.step lib (.archive id a)).archives.find? (·.id = id) = some { k with state := st } := by
  show (s.stepArchive lib id a).archives.find? _ = _
  unfold State.stepArchive
  rw [hk]
  dsimp only
  rw [hstep]
  dsimp only
  rw [find?_setArchive, hk, Option.map_some, if_pos (id_of_find? hk)]

end State

/-- An archive of a valid solution that is not interrupted writes the block, whatever the other tasks
    do meanwhile. -/
theorem archive_written (hlib : lib.Lawful) {id : TaskId} {k : ArchiveTask}
    (hk : s.archives.find? (·.id = id) = some k) (hstarting : k.state = .starting)
    (hactive : s.tdp.shared.globalCancelled = false) {header : Header}
    (hvalid : validateSolution lib.rb k.template k.solution k.coinbaseTx = .ok header)
    {answered : Block} {c : Transaction} {others : List Transaction}
    (htxdata : answered.txdata = c :: others) (hsmall : answered.encode.length ≤ maxDecodeSize)
    {es₁ es₂ : List State.Event} (h₁ : ∀ e ∈ es₁, e.archive? ≠ some id)
    (h₂ : ∀ e ∈ es₂, e.archive? ≠ some id) :
    (Runs.run (State.step lib) s (.archive id .done :: es₁ ++ .archive id .done :: es₂ ++
        [.archive id (.block answered.encode .done)])).solutions.lookup (header.blockHash lib.rb) =
      some (Block.encode ⟨header, k.coinbaseTx :: others⟩) := by
  have hfirst : k.step lib s.tdp.shared.globalCancelled s.solutions .done =
      (s.solutions, some (.makingThread header)) := by
    unfold ArchiveTask.step
    simp only [hstarting, hactive, Bool.false_eq_true, if_false, hvalid]
  have hthread := State.find?_run lib h₁ (State.find?_stepArchive lib hk hfirst)
  have hblock := State.find?_run lib h₂ (State.find?_stepArchive lib (a := .done) hthread rfl)
  rw [List.cons_append, List.cons_append, Runs.run_cons, List.append_assoc, Runs.run_append,
    List.cons_append, Runs.run_cons, Runs.run_append, Runs.run_cons, Runs.run_nil]
  generalize Runs.run (State.step lib) _ es₂ = s₂ at hblock ⊢
  show (s₂.stepArchive lib id (.block answered.encode .done)).solutions.lookup _ = _
  have hwritten : solutionBlock lib k.coinbaseTx header answered.encode =
      .ok ⟨header, k.coinbaseTx :: others⟩ := by
    unfold solutionBlock
    rw [hlib.block answered hsmall]
    obtain ⟨_, _⟩ := answered
    subst htxdata
    rfl
  unfold State.stepArchive
  rw [hblock]
  simp only [ArchiveTask.step, hwritten]
  exact AList.lookup_insert _

/-! ## Every run -/

/-- Whatever Bitcoin Core answers, whichever writes fail and in whichever order the tasks run: a file
    in the solutions directory is the block of an accepted solution of a published template, or the
    beginning of one if a write was cut short; its name is the hash of that block and has the work
    that the template asks for; there are no more files than accepted solutions; and an archive that
    is not interrupted writes its block. -/
theorem archived_solutions (lib : BlockLibrary) (hlib : lib.Lawful) (maxSameTipTemplates : Option Nat)
    (es : List State.Event) :
    let s := State.after lib maxSameTipTemplates es
    (∀ hash file, s.solutions.lookup hash = some file → ∃ p m b, Solved lib s p m b ∧
      (b.header.version = m.version ∧ b.header.time = m.ntime ∧ b.header.nonce = m.nonce ∧
        b.header.prevBlockhash = p.template.prevHash ∧ b.header.bits = p.template.header.bits) ∧
      (hash = b.header.blockHash lib.rb ∧
        ofLe hash.val ≤ p.template.getSetNewPrevHashMessage.target) ∧
      (∃ coinbaseTx answered, m.coinbaseTx = coinbaseTx.consensusEncode ∧
        (m.templateId, answered) ∈ s.templateBlocks ∧ b.txdata = coinbaseTx :: answered.others ∧
        (p.newTemplate.merklePath =
            MerkleBranch.branch lib.rb.merkleNode (answered.txdata.map lib.rb.computeTxid) →
          MerkleBranch.root lib.rb.merkleNode (b.txdata.map lib.rb.computeTxid) =
            some b.header.merkleRoot)) ∧
      file <+: b.encode ∧
      ((∀ e ∈ es, e.writesWhole = true) →
        file = b.encode ∧ (b.encode.length ≤ maxDecodeSize → lib.deserializeBlock file = some b))) ∧
    s.solutions.keys.length ≤ s.accepted.length ∧
    ∀ id k header (answered : Block) c others es₁ es₂, s.archives.find? (·.id = id) = some k →
      k.state = .starting → s.tdp.shared.globalCancelled = false →
      validateSolution lib.rb k.template k.solution k.coinbaseTx = .ok header →
      answered.txdata = c :: others → answered.encode.length ≤ maxDecodeSize →
      (∀ e ∈ es₁, e.archive? ≠ some id) → (∀ e ∈ es₂, e.archive? ≠ some id) →
      (Runs.run (State.step lib) s (.archive id .done :: es₁ ++ .archive id .done :: es₂ ++
          [.archive id (.block answered.encode .done)])).solutions.lookup (header.blockHash lib.rb) =
        some (Block.encode ⟨header, k.coinbaseTx :: others⟩) := by
  intro s
  have hinv := archiveInv_after lib maxSameTipTemplates es
  refine ⟨?_, ?_, ?_⟩
  · intro hash file hfile
    obtain ⟨p, m, b, hsolved, hname, hprefix, hwhole⟩ := hinv.solutions hash file hfile
    obtain ⟨coinbaseTx, answered, c, others, hcoinbase, hanswered, htxdata, hvalid, hb⟩ := hsolved.made
    obtain ⟨-, hheader, hwork⟩ := validateSolution_eq_ok.mp hvalid
    have hbits : b.header.bits = p.template.header.bits := by
      rw [hheader]
      rfl
    refine ⟨p, m, b, hsolved, ?_, ⟨hname, ?_⟩, ⟨coinbaseTx, answered, hlib.transaction _ _ hcoinbase,
      hanswered, ?_, ?_⟩, hprefix, ?_⟩
    · rw [hheader]
      exact ⟨rfl, rfl, rfl, rfl, rfl⟩
    · rw [hname, TemplateData.getSetNewPrevHashMessage, ← hbits]
      exact hwork
    · rw [hb, Block.others, htxdata]
      rfl
    · exact root_of_solution hheader htxdata hb
    · intro hall
      have hfile := hwhole hall
      refine ⟨hfile, ?_⟩
      intro hsmall
      rw [hfile]
      exact hlib.block b hsmall
  · have hcount := hinv.count
    show s.solutions.keys.length ≤ s.accepted.length
    exact Nat.le_trans (Nat.le_add_right _ _) hcount
  · intro id k header answered c others es₁ es₂ hk hstarting hactive hvalid htxdata hsmall h₁ h₂
    exact archive_written hlib hk hstarting hactive hvalid htxdata hsmall h₁ h₂

/-! ## A solution that is archived -/

/-- Half of all hashes meet the target. -/
def easyFetched : Fetched where
  header := ⟨0x20000000, Hash256.allZeros, Hash256.allZeros, 0, 0x207fffff, 0⟩
  coinbaseTx := ⟨2, 0, [3, 1, 2, 3], 0xffffffff, [], []⟩
  blockRewardRemaining := 5000000000
  merklePath := []

/-- A coinbase with one output. -/
def paying (o : TxOut) : Transaction := ⟨2, 0, [⟨OutPoint.null, [3, 1, 2, 3], 0xffffffff, []⟩], [o]⟩

def sampleSolution : SubmitSolution :=
  ⟨0, 0x20000000, 7, 0, (paying ⟨5000000000, [0x51]⟩).consensusEncode⟩

/-- A template is published, its solution is accepted, and the archive is not interrupted. -/
def archiveRun : List State.Event :=
  [.tdp (.run (.recv (.coinbaseOutputConstraints ⟨0, 0⟩))), .tdp (.run .blockTemplate),
    .tdp (.run (.fetched easyFetched)), .tdp (.run .done), .tdp (.run .done),
    .submitSolution sampleSolution true, .submitResult (some true), .archive 0 .done, .archive 0 .done,
    .archive 0 (.block (Block.encode ⟨easyFetched.header, [paying ⟨0, []⟩]⟩) .done)]

/-- The block that is found in the directory. -/
def archivedBlock : Block :=
  ⟨solutionHeader referenceBitcoin (.ofFetched 0 ⟨0, 0⟩ easyFetched) sampleSolution
    (paying ⟨5000000000, [0x51]⟩), [paying ⟨5000000000, [0x51]⟩]⟩

theorem archivedBlock_found :
    (State.after (referenceBlocks referenceBitcoin) none archiveRun).solutions.lookup
      (archivedBlock.header.blockHash referenceBitcoin) = some archivedBlock.encode := by
  decide +kernel

theorem archived_solutions_sample :
    ∃ p m b, Solved (referenceBlocks referenceBitcoin)
        (State.after (referenceBlocks referenceBitcoin) none archiveRun) p m b ∧
      archivedBlock.encode = b.encode := by
  obtain ⟨hfiles, -, -⟩ := archived_solutions (referenceBlocks referenceBitcoin)
    (referenceBlocks_lawful _) none archiveRun
  obtain ⟨p, m, b, hsolved, -, -, -, -, hwhole⟩ := hfiles _ _ archivedBlock_found
  exact ⟨p, m, b, hsolved, (hwhole (by decide)).1⟩

end Sv2Apps.BitcoinCore.SolutionArchive
