import EdonPlatform.Platform.CompiledOnce
import Mathlib.Data.List.MinMax

/- Whether the candidate that is reported for an institution was compiled from the sources
   that are registered for it. The sources of an institution only grow, every registration
   enqueues a compile message, and a completed message has a candidate compiled from a set
   of sources with the one it was enqueued for; so the largest candidate has all of them. But
   the candidate that is reported is the one created last, and a handler that loaded its
   sources early may persist late.

   What is proved:
     1. `current_in_order` — if no registration meets a message with its dedupe key, and
        every candidate is persisted in its turn, the candidate that is reported is up to
        date wherever all compile messages of its institution are completed.
     2. `earlier_sources_reported` — two workers, the first of them slow: the candidate
        that is reported lacks a registered source, and every message is completed. -/
namespace Edon.Platform
open Transition Js Fallible

section
variable (s : TransitionService)

/-- Once its compile messages are all completed, the candidate that is reported for an
institution was compiled from its sources. -/
def Compilations.UpToDate (d : Compilations) : Prop :=
  ∀ institutionId, (∀ m ∈ compileMessages institutionId d.queue.outbox, m.status = .completed) →
    match (getInstitutionCompilationStatus s institutionId d.queue.outbox d.store).candidate with
    | some r =>
      r.CompiledFrom s (institutionId, d.store.listInstitutionSources s.pg institutionId)
    | none => compileMessages institutionId d.queue.outbox = [] ∧
      d.store.listInstitutionSources s.pg institutionId = []

/-! ## What is asked of a run -/

/-- Reported after the other one, whatever the order they are stored in. -/
def OlderThan (pg : Postgres) (a b : InstitutionCandidate) : Prop :=
  candidateBefore pg a b ∧ ¬ candidateBefore pg b a

instance (pg : Postgres) : DecidableRel (OlderThan pg) := fun _ _ => by
  unfold OlderThan; infer_instance

/-- How many sources a candidate was compiled from. -/
def InstitutionCandidate.size (c : InstitutionCandidate) : Nat := c.inputSourceHashes.length

/-- No candidate of the institution was compiled from more sources. -/
def CompilerStore.Largest (store : CompilerStore) (c : InstitutionCandidate) : Prop :=
  ∀ r ∈ store.candidatesOf c.institutionId, r.size ≤ c.size

instance (store : CompilerStore) (c : InstitutionCandidate) : Decidable (store.Largest c) := by
  unfold CompilerStore.Largest; infer_instance

/-- A candidate that is about to be persisted has an id that is not that of other sources; and
if it is new, it is created after all others where it is the largest one, and before the
largest one where it is not. -/
structure CompilerStore.InTurn (pg : Postgres) (store : CompilerStore) (c : InstitutionCandidate) :
    Prop where
  sameId : ∀ r ∈ store.candidatesOf c.institutionId, r.candidateId = c.candidateId →
    r.inputSourceHashes = c.inputSourceHashes
  largest : (store.candidates.get c.key).isNone = true → store.Largest c →
    ∀ r ∈ store.candidatesOf c.institutionId, OlderThan pg r c
  smaller : (store.candidates.get c.key).isNone = true →
    ∀ r ∈ store.candidatesOf c.institutionId, store.Largest r → c.size < r.size → OlderThan pg c r

instance (pg : Postgres) (store : CompilerStore) (c : InstitutionCandidate) :
    Decidable (store.InTurn pg c) :=
  decidable_of_iff
    ((∀ r ∈ store.candidatesOf c.institutionId, r.candidateId = c.candidateId →
        r.inputSourceHashes = c.inputSourceHashes) ∧
      ((store.candidates.get c.key).isNone = true → store.Largest c →
        ∀ r ∈ store.candidatesOf c.institutionId, OlderThan pg r c) ∧
      ((store.candidates.get c.key).isNone = true →
        ∀ r ∈ store.candidatesOf c.institutionId, store.Largest r → c.size < r.size →
          OlderThan pg c r))
    ⟨fun ⟨h₁, h₂, h₃⟩ => ⟨h₁, h₂, h₃⟩, fun ⟨h₁, h₂, h₃⟩ => ⟨h₁, h₂, h₃⟩⟩

/-- A source that is registered is the first one with its dedupe key, and a candidate that is
persisted is in its turn. -/
def Compilations.InOrder (d : Compilations) : CompilerMove → Prop
  | .postSources institutionId r =>
    match r.source s institutionId with
    | .ok (some source) => (d.store.sources.get source.key).isNone = true →
      ∀ row ∈ d.queue.outbox.rows, row.message.dedupeKey ≠ source.dedupeKey
    | _ => True
  | .handle w now _ _ =>
    match d.queue.phase w, d.handler w with
    | .running claim, .loaded institutionId sources =>
      d.store.InTurn s.pg (candidate s now claim.message institutionId sources)
    | _, _ => True
  | .postCompilations _ | .queue _ => True

instance (d : Compilations) : (m : CompilerMove) → Decidable (d.InOrder s m)
  | .postSources institutionId r => by
    unfold Compilations.InOrder
    dsimp only
    split <;> infer_instance
  | .handle w now _ _ => by
    unfold Compilations.InOrder
    dsimp only
    split <;> infer_instance
  | .postCompilations _ | .queue _ => inferInstanceAs (Decidable True)

/-! ## What a message is owed -/

/-- The message was enqueued with the source. -/
structure OutboxMessage.Brings (m : OutboxMessage) (source : InstitutionSource) : Prop where
  compiles : m.compiles = true
  institution : m.aggregateId = source.institutionId
  dedupeKey : m.dedupeKey = source.dedupeKey

/-- Sources of the message's institution as they were at some time, its own among them. -/
structure CompilerStore.Suffices (store : CompilerStore) (m : OutboxMessage)
    (sources : List InstitutionSource) : Prop where
  loaded : store.Loaded s (m.aggregateId, sources)
  brought : ∀ source ∈ store.sources.rows, m.Brings source → source ∈ sources

/-- A candidate was compiled from such sources. -/
def CompilerStore.Answers (store : CompilerStore) (m : OutboxMessage) : Prop :=
  ∃ r ∈ store.candidates.rows, ∃ sources, r.Of s (m.aggregateId, sources) ∧
    store.Suffices s m sources

/-- What the handler of a compile message has established. -/
def Compiling.Sound (store : CompilerStore) (m : OutboxMessage) : Compiling → Prop
  | .start => True
  | .loaded institutionId sources => institutionId = m.aggregateId ∧ store.Suffices s m sources
  | .returned => store.Answers s m

/-- Nothing is lost, and the message brought none of the sources that are new. -/
structure CompilerStore.Keeps (store store' : CompilerStore) (m : OutboxMessage) : Prop where
  sources : store.sources.rows <+: store'.sources.rows
  brought : ∀ source ∈ store'.sources.rows, m.Brings source → source ∈ store.sources.rows
  candidates : ∀ r ∈ store.candidates.rows, r ∈ store'.candidates.rows

/-- What holds between the queue, the handlers and the tables. -/
structure Compilations.Acknowledged (d : Compilations) : Prop where
  message : ∀ w claim, (d.queue.phase w).claim = some claim →
    ∃ row, d.queue.outbox.get claim.outboxId = some row ∧ row.message = claim.message
  institution : ∀ outboxId row, d.queue.outbox.get outboxId = some row →
    row.message.compiles = true → row.message.institutionId s = .ok row.message.aggregateId
  completed : ∀ outboxId row, d.queue.outbox.get outboxId = some row →
    row.message.compiles = true → row.status = .completed → d.store.Answers s row.message
  handled : ∀ w claim, d.queue.phase w = .handled claim → claim.message.compiles = true →
    d.store.Answers s claim.message
  running : ∀ w claim, d.queue.phase w = .running claim → claim.message.compiles = true →
    (d.handler w).Sound s d.store claim.message

/-- The largest candidate of every institution is reported last. -/
def CompilerStore.Ordered (store : CompilerStore) : Prop :=
  ∀ r ∈ store.candidates.rows, store.Largest r →
    ∀ r' ∈ store.candidatesOf r.institutionId, r'.size < r.size → OlderThan s.pg r' r

/-- Every source has its message, and the candidates came in their turn. -/
structure Compilations.Tracked (d : Compilations) : Prop extends Compilations.Acknowledged s d where
  brought : ∀ source ∈ d.store.sources.rows, ∃ row ∈ d.queue.outbox.rows, row.message.Brings source
  ordered : d.store.Ordered s

variable {s} {workers : Nat → Worker}

theorem CompilerStore.Suffices.keep {store store' : CompilerStore} {m : OutboxMessage}
    {sources : List InstitutionSource} (h : store.Suffices s m sources)
    (hkeep : store.Keeps store' m) : store'.Suffices s m sources where
  loaded := h.loaded.append hkeep.sources
  brought source hsource hbrings := h.brought source (hkeep.brought source hsource hbrings) hbrings

theorem CompilerStore.Answers.keep {store store' : CompilerStore} {m : OutboxMessage}
    (h : store.Answers s m) (hkeep : store.Keeps store' m) : store'.Answers s m := by
  obtain ⟨r, hr, sources, hof, hsuffices⟩ := h
  exact ⟨r, hkeep.candidates r hr, sources, hof, hsuffices.keep hkeep⟩

theorem Compiling.Sound.keep {store store' : CompilerStore} {m : OutboxMessage} {c : Compiling}
    (h : c.Sound s store m) (hkeep : store.Keeps store' m) : c.Sound s store' m := by
  cases c with
  | start => trivial
  | loaded institutionId sources => exact ⟨h.1, h.2.keep hkeep⟩
  | returned => exact CompilerStore.Answers.keep h hkeep

/-! ## The queue and the handlers -/

theorem acknowledged_empty : Compilations.empty.Acknowledged s where
  message := fun _ _ h => nomatch h
  institution := fun _ _ h => nomatch h
  completed := fun _ _ h => nomatch h
  handled := fun _ _ h => nomatch h
  running := fun _ _ h => nomatch h

/-- The queue acts: a handler that is over has returned, and one that begins is at its start. -/
theorem Compilations.Acknowledged.queue {d : Compilations} (h : d.Acknowledged s) {a : Action}
    {q : Queue} {handler : Nat → Compiling} (heffect : Effect workers d.queue a q)
    (hmessage : ∀ now message, a = .enqueue now message → message.compiles = true →
      message.institutionId s = .ok message.aggregateId)
    (hreturned : ∀ w, a = .finish w (.ok ()) → d.handler w = .returned)
    (hhandler : ∀ w, handler w = d.handler w ∨ handler w = .start)
    (hclaim : ∀ w now locked, a = .claim w now locked → handler w = .start) :
    Compilations.Acknowledged s { d with queue := q, handler } := by
  refine ⟨?_, ?_, ?_, ?_, ?_⟩
  · intro w claim hclaim
    have hrow : ∃ row, d.queue.outbox.get claim.outboxId = some row ∧
        row.message = claim.message := by
      rcases claim_effect heffect hclaim with hclaim | hrow
      · exact h.message w claim hclaim
      · exact hrow
    obtain ⟨row, hget, hmessage⟩ := hrow
    obtain ⟨row', hget', hmessage', _⟩ := row_effect heffect hget
    exact ⟨row', hget', hmessage'.trans hmessage⟩
  · intro outboxId row' hget' hcompiles
    cases hget : d.queue.outbox.get outboxId with
    | none =>
      obtain ⟨_, now, ha⟩ := new_row_effect heffect hget hget'
      exact hmessage now row'.message ha hcompiles
    | some row =>
      obtain ⟨row'', hget'', hsame, _⟩ := row_effect heffect hget
      rw [hget'] at hget''
      cases hget''
      rw [hsame] at hcompiles ⊢
      exact h.institution outboxId row hget hcompiles
  · intro outboxId row' hget' hcompiles hstatus
    cases hget : d.queue.outbox.get outboxId with
    | none =>
      rw [(new_row_effect heffect hget hget').1] at hstatus
      cases hstatus
    | some row =>
      obtain ⟨row'', hget'', hsame, hcompleted⟩ := row_effect heffect hget
      rw [hget'] at hget''
      cases hget''
      rw [hsame] at hcompiles ⊢
      rcases hcompleted hstatus with hcompleted | ⟨w, claim, hphase, hid⟩
      · exact h.completed outboxId row hget hcompiles hcompleted
      · -- the worker that completes the row has handled the row's message
        obtain ⟨row₁, hget₁, hmessage₁⟩ := h.message w claim (by rw [hphase]; rfl)
        rw [hid, hget] at hget₁
        cases hget₁
        rw [hmessage₁] at hcompiles ⊢
        exact h.handled w claim hphase hcompiles
  · intro w claim hphase hcompiles
    rcases handled_effect heffect hphase with hphase | ⟨ha, hphase⟩
    · exact h.handled w claim hphase hcompiles
    · have hs := h.running w claim hphase hcompiles
      rw [hreturned w ha] at hs
      exact hs
  · intro w claim hphase hcompiles
    show (handler w).Sound s d.store claim.message
    rcases hhandler w with hsame | hstart
    · rw [hsame]
      rcases running_effect heffect hphase with hphase | ⟨now, locked, ha⟩
      · exact h.running w claim hphase hcompiles
      · rw [← hsame, hclaim w now locked ha]
        trivial
    · rw [hstart]
      trivial

/-- The message of a claim that is in hand is that of a row. -/
theorem Compilations.Acknowledged.row {d : Compilations} (h : d.Acknowledged s) (w : Nat)
    (claim : OutboxRow) (hclaim : (d.queue.phase w).claim = some claim) :
    ∃ row ∈ d.queue.outbox.rows, row.message = claim.message := by
  obtain ⟨row, hget, hmessage⟩ := h.message w claim hclaim
  exact ⟨row, Table.mem_of_get hget, hmessage⟩

/-- The tables change, and keep what the messages that are there rest on. -/
theorem Compilations.Acknowledged.keep {d : Compilations} (h : d.Acknowledged s)
    {store : CompilerStore} {handler : Nat → Compiling}
    {persisted : List (String × List InstitutionSource)}
    (hkeep : ∀ row ∈ d.queue.outbox.rows, d.store.Keeps store row.message)
    (hrunning : ∀ w claim, d.queue.phase w = .running claim → claim.message.compiles = true →
      (handler w).Sound s store claim.message) :
    Compilations.Acknowledged s { d with store, handler, persisted } where
  message := h.message
  institution := h.institution
  completed outboxId row hget hcompiles hstatus :=
    (h.completed outboxId row hget hcompiles hstatus).keep (hkeep row (Table.mem_of_get hget))
  handled w claim hphase hcompiles := by
    obtain ⟨row, hrow, hmessage⟩ := h.row w claim (by rw [hphase]; rfl)
    exact (h.handled w claim hphase hcompiles).keep (hmessage ▸ hkeep row hrow)
  running := hrunning

/-- One handler moves on. -/
theorem Compilations.Acknowledged.handle {d : Compilations} (h : d.Acknowledged s)
    {store : CompilerStore} {w : Nat} {claim : OutboxRow} {c : Compiling}
    {persisted : List (String × List InstitutionSource)}
    (hphase : d.queue.phase w = .running claim)
    (hkeep : ∀ row ∈ d.queue.outbox.rows, d.store.Keeps store row.message)
    (hc : claim.message.compiles = true → c.Sound s store claim.message) :
    Compilations.Acknowledged s
      { d with store, handler := Function.update d.handler w c, persisted } := by
  refine h.keep hkeep ?_
  intro w' claim' hphase' hcompiles
  by_cases hw : w' = w
  · subst hw
    rw [hphase] at hphase'
    cases hphase'
    rw [Function.update_self]
    exact hc hcompiles
  · rw [Function.update_of_ne hw]
    obtain ⟨row, hrow, hmessage⟩ := h.row w' claim' (by rw [hphase']; rfl)
    exact (h.running w' claim' hphase' hcompiles).keep (hmessage ▸ hkeep row hrow)

theorem CompilerStore.Keeps.refl (store : CompilerStore) (m : OutboxMessage) :
    store.Keeps store m :=
  ⟨List.prefix_refl _, fun _ h _ => h, fun _ h => h⟩

/-! ## Candidates in their turn -/

theorem mem_candidatesOf {store : CompilerStore} {institutionId : String}
    {r : InstitutionCandidate} :
    r ∈ store.candidatesOf institutionId ↔
      r ∈ store.candidates.rows ∧ r.institutionId = institutionId := by
  unfold CompilerStore.candidatesOf
  rw [List.mem_filter, decide_eq_true_iff]

/-- **One candidate more.** -/
theorem CompilerStore.Ordered.create {store store' : CompilerStore} {c : InstitutionCandidate}
    (h : store.Ordered s) (hturn : store.InTurn s.pg c)
    (hrows : ∀ r, r ∈ store'.candidates.rows ↔ r ∈ store.candidates.rows ∨
      (r = c.stored ∧ ∀ r' ∈ store.candidates.rows, r'.key ≠ c.key)) : store'.Ordered s := by
  have hmem : ∀ i, ∀ r ∈ store.candidatesOf i, r ∈ store'.candidatesOf i := by
    intro i r hr
    obtain ⟨hr, hi⟩ := mem_candidatesOf.mp hr
    exact mem_candidatesOf.mpr ⟨(hrows r).mpr (.inl hr), hi⟩
  have hfree : (∀ r' ∈ store.candidates.rows, r'.key ≠ c.key) →
      (store.candidates.get c.key).isNone = true := by
    intro hfree
    rw [Table.get_eq_none.mpr hfree]
    rfl
  intro r hr hlargest r' hmem' hsmaller
  obtain ⟨hr', hinstitution⟩ := mem_candidatesOf.mp hmem'
  clear hmem'
  rcases (hrows r).mp hr with hold | ⟨rfl, hnew⟩
  · have hlargest : store.Largest r := fun x hx => hlargest x (hmem _ x hx)
    rcases (hrows r').mp hr' with hold' | ⟨rfl, hnew⟩
    · exact h r hold hlargest r' (mem_candidatesOf.mpr ⟨hold', hinstitution⟩) hsmaller
    · exact hturn.smaller (hfree hnew) r (mem_candidatesOf.mpr ⟨hold, hinstitution.symm⟩) hlargest
        hsmaller
  · have hlargest : store.Largest c := fun x hx => hlargest x (hmem _ x hx)
    rcases (hrows r').mp hr' with hold' | ⟨rfl, _⟩
    · exact hturn.largest (hfree hnew) hlargest r' (mem_candidatesOf.mpr ⟨hold', hinstitution⟩)
    · exact absurd hsmaller (lt_irrefl _)

/-- The row with the key of a candidate that was persisted in its turn is of its sources. -/
theorem of_inTurn {d : Compilations} (h : d.Sound s) {now : Int} {m : OutboxMessage}
    {institutionId : String} {sources : List InstitutionSource} {r : InstitutionCandidate}
    (hloaded : d.store.Loaded s (institutionId, sources))
    (hturn : d.store.InTurn s.pg (candidate s now m institutionId sources))
    (hr : r ∈ d.store.candidates.rows)
    (hkey : r.key = (candidate s now m institutionId sources).key) :
    r.Of s (institutionId, sources) := by
  have hinstitution : r.institutionId = institutionId := congrArg Prod.fst hkey
  have hinputs := hturn.sameId r (mem_candidatesOf.mpr ⟨hr, hinstitution⟩) (congrArg Prod.snd hkey)
  obtain ⟨⟨i, l⟩, hx, hof⟩ := h.candidates r hr
  have hi : i = institutionId := hof.institution.symm.trans hinstitution
  subst hi
  have hlength : l.length = sources.length := by
    calc l.length
      _ = r.inputSourceHashes.length := hof.inputs.symm
      _ = (candidate s now m i sources).stored.inputSourceHashes.length := by
        rw [hinputs]
        rfl
      _ = sources.length := (candidate_of now m i sources).inputs
  rw [← (h.loaded _ hx).eq_of_length hloaded hlength]
  exact hof

/-! ## One move -/

/-- A source that is the first one with its dedupe key brings its message. -/
theorem enqueueOutbox_first {now : Int} {message : OutboxMessage} {outbox outbox' : Outbox}
    {inserted : Bool} (h : enqueueOutbox now message outbox = .ok (inserted, outbox'))
    (hfirst : ∀ row ∈ outbox.rows, row.message.dedupeKey ≠ message.dedupeKey) :
    outbox.insert { message, availableAt := now, createdAt := now } = some outbox' := by
  rcases enqueueOutbox_cases h with ⟨rfl, _⟩ | ⟨_, hinsert⟩
  · unfold enqueueOutbox at h
    rw [if_neg] at h
    · split at h <;> cases h
    · intro hany
      obtain ⟨row, hrow, hkey⟩ := List.any_eq_true.mp hany
      exact hfirst row hrow (of_decide_eq_true hkey)
  · exact hinsert

theorem Compilations.Tracked.registered {d : Compilations} (h : d.Tracked s)
    {source : InstitutionSource} {r : Request} {inserted : Bool} {outbox : Outbox}
    {sources : Table InstitutionSource.key}
    (hfirst : ∀ row ∈ d.queue.outbox.rows, row.message.dedupeKey ≠ source.dedupeKey)
    (hinsert : d.store.sources.insert source.stored = some sources)
    (henqueue : enqueueOutbox r.now (source.message s r) d.queue.outbox = .ok (inserted, outbox)) :
    Compilations.Tracked s { d with
      queue := { d.queue with outbox }, store := { d.store with sources } } := by
  have hkeep : ∀ row ∈ d.queue.outbox.rows,
      d.store.Keeps { d.store with sources } row.message := by
    intro row hrow
    refine ⟨?_, ?_, fun _ hc => hc⟩
    · show d.store.sources.rows <+: sources.rows
      rw [(Table.rows_insert hinsert).1]
      exact List.prefix_append ..
    · intro x hx hbrings
      rcases (Table.mem_insert hinsert).mp hx with hx | rfl
      · exact hx
      · exact absurd hbrings.dedupeKey (hfirst row hrow)
  have hkept : Compilations.Acknowledged s { d with store := { d.store with sources } } := by
    refine h.keep hkeep ?_
    intro w claim hphase hcompiles
    obtain ⟨row, hrow, hmessage⟩ := h.row w claim (by rw [hphase]; rfl)
    exact (h.running w claim hphase hcompiles).keep (hmessage ▸ hkeep row hrow)
  have hinserted := enqueueOutbox_first henqueue hfirst
  have heffect : Effect (fun _ => ⟨"", 0, 0⟩) _ _ _ := .enqueue henqueue
  refine ⟨hkept.queue heffect ?_ nofun (fun _ => .inl rfl) nofun, ?_, h.ordered⟩
  · intro now message ha _
    cases ha
    rfl
  · intro x hx
    rcases (Table.mem_insert hinsert).mp hx with hx | rfl
    · obtain ⟨row, hrow, hbrings⟩ := h.brought x hx
      exact ⟨row, (Table.mem_insert hinserted).mpr (.inl hrow), hbrings⟩
    · exact ⟨_, (Table.mem_insert hinserted).mpr (.inr rfl), ⟨rfl, rfl, rfl⟩⟩

theorem Compilations.Tracked.persisted {d : Compilations} (h : d.Tracked s) (hsound : d.Sound s)
    {w : Nat} {claim : OutboxRow} {now : Int} {recordedAt institutionId : String}
    {sources : List InstitutionSource} {store : CompilerStore}
    (hphase : d.queue.phase w = .running claim)
    (hhandler : d.handler w = .loaded institutionId sources)
    (hturn : d.store.InTurn s.pg (candidate s now claim.message institutionId sources))
    (hpersist : persistCandidate s (workers w) recordedAt claim.message
      (candidate s now claim.message institutionId sources) d.store = .ok store) :
    Compilations.Tracked s { d with
      store
      handler := Function.update d.handler w .returned
      persisted := d.persisted ++ [(institutionId, sources)] } := by
  obtain ⟨⟨r, hr, hkey⟩, hrows, hsources, _⟩ :=
    createInstitutionCandidate_rows (candidate s now claim.message institutionId sources) d.store
  obtain ⟨hsources', hcandidates, _⟩ := appendEvent_rows hpersist
  rw [hsources] at hsources'
  rw [← hcandidates] at hr hrows
  have hloaded := hsound.inHand w institutionId sources hhandler
  have hof : r.Of s (institutionId, sources) := by
    rcases (hrows r).mp hr with hold | ⟨rfl, _⟩
    · exact of_inTurn hsound hloaded hturn hold hkey
    · exact candidate_of now claim.message institutionId sources
  have hkeep : ∀ row ∈ d.queue.outbox.rows, d.store.Keeps store row.message := by
    intro row _
    refine ⟨hsources' ▸ List.prefix_refl _, ?_, ?_⟩
    · rw [hsources']
      exact fun _ hx _ => hx
    · intro x hx
      exact (hrows x).mpr (.inl hx)
  refine ⟨h.handle hphase hkeep ?_, ?_, ?_⟩
  · intro hcompiles
    have hs := h.running w claim hphase hcompiles
    rw [hhandler] at hs
    obtain ⟨rfl, hsuffices⟩ := hs
    obtain ⟨row, hrow, hmessage⟩ := h.row w claim (by rw [hphase]; rfl)
    exact ⟨r, hr, sources, hof, hsuffices.keep (hmessage ▸ hkeep row hrow)⟩
  · intro x hx
    rw [hsources'] at hx
    exact h.brought x hx
  · exact h.ordered.create hturn hrows

theorem tracked_effect {d d' : Compilations} {m : CompilerMove} (h : d.Tracked s)
    (hsound : d.Sound s) (horder : d.InOrder s m) (heffect : CompilerEffect s workers d m d') :
    d'.Tracked s := by
  cases heffect with
  | none => exact h
  | @registered institutionId source r _ _ _ hsource hinsert henqueue =>
    refine h.registered ?_ hinsert henqueue
    unfold Compilations.InOrder at horder
    dsimp only at horder
    rw [hsource] at horder
    apply horder
    have hfree : d.store.sources.get source.key = none := (Table.rows_insert hinsert).2
    rw [hfree]
    rfl
  | queue heffect hmessage hreturned hhandler hclaim =>
    refine ⟨h.queue heffect hmessage hreturned hhandler hclaim, ?_, h.ordered⟩
    intro x hx
    obtain ⟨row, hrow, hbrings⟩ := h.brought x hx
    obtain ⟨row', hget', hmessage', _⟩ := row_effect heffect (Table.get_of_mem hrow)
    exact ⟨row', Table.mem_of_get hget', hmessage' ▸ hbrings⟩
  | @loaded _ w claim institutionId hphase hhandler hid =>
    refine ⟨h.handle hphase (fun row _ => .refl ..) ?_, h.brought, h.ordered⟩
    intro hcompiles
    obtain ⟨row, hget, hmessage⟩ := h.message w claim (by rw [hphase]; rfl)
    have hown := h.institution _ row hget (hmessage ▸ hcompiles)
    rw [hmessage, hid] at hown
    cases hown
    refine ⟨rfl, loaded_now d.store _, ?_⟩
    intro x hx hbrings
    apply (List.mem_insertionSort _).mpr
    exact List.mem_filter.mpr ⟨hx, decide_eq_true hbrings.institution.symm⟩
  | @passed _ w claim hphase hother hloaded =>
    refine ⟨h.handle hphase (fun row _ => .refl ..) ?_, h.brought, h.ordered⟩
    intro hcompiles
    have hs := h.running w claim hphase hcompiles
    cases hhandler : d.handler w with
    | start =>
      rw [hother hhandler] at hcompiles
      cases hcompiles
    | loaded i sources => exact absurd hhandler (hloaded i sources)
    | returned =>
      rw [hhandler] at hs
      exact hs
  | persisted hphase hhandler hpersist =>
    refine h.persisted hsound hphase hhandler ?_ hpersist
    unfold Compilations.InOrder at horder
    dsimp only at horder
    rw [hphase, hhandler] at horder
    exact horder

theorem tracked_compilations_empty : Compilations.empty.Tracked s where
  toAcknowledged := acknowledged_empty
  brought := fun _ h => nomatch h
  ordered := fun _ h => nomatch h

/-! ## The candidate that is reported -/

theorem mem_sourcesOf {pg : Postgres} {institutionId : String} {rows : List InstitutionSource}
    {source : InstitutionSource} :
    source ∈ sourcesOf pg institutionId rows ↔
      source ∈ rows ∧ source.institutionId = institutionId := by
  unfold sourcesOf
  rw [List.mem_insertionSort, List.mem_filter, decide_eq_true_iff]

/-- Of two lists that were loaded, the longer one has all of the shorter one. -/
theorem CompilerStore.Loaded.subset {store : CompilerStore} {institutionId : String}
    {l m : List InstitutionSource} (hl : store.Loaded s (institutionId, l))
    (hm : store.Loaded s (institutionId, m)) (h : l.length ≤ m.length) : l ⊆ m := by
  obtain ⟨p, hp, hpl⟩ := hl
  obtain ⟨q, hq, hqm⟩ := hm
  dsimp only at hpl hqm
  rcases List.prefix_or_prefix_of_prefix hp hq with hpq | hqp
  · intro x hx
    rw [hpl] at hx
    rw [hqm]
    obtain ⟨hx, hi⟩ := mem_sourcesOf.mp hx
    exact mem_sourcesOf.mpr ⟨hpq.subset hx, hi⟩
  · have hle : m.length ≤ l.length := by
      rw [hpl, hqm, length_sourcesOf, length_sourcesOf]
      exact (hqp.filter _).length_le
    rw [CompilerStore.Loaded.eq_of_length ⟨p, hp, hpl⟩ ⟨q, hq, hqm⟩ (le_antisymm h hle)]
    exact List.Subset.refl _

/-- A list that was loaded and has all sources that are there now is what is loaded now. -/
theorem CompilerStore.Loaded.eq_now {store : CompilerStore} {institutionId : String}
    {l : List InstitutionSource} (hl : store.Loaded s (institutionId, l))
    (h : store.listInstitutionSources s.pg institutionId ⊆ l) :
    l = store.listInstitutionSources s.pg institutionId := by
  apply hl.eq_of_length (loaded_now store institutionId)
  have hnodup : (store.listInstitutionSources s.pg institutionId).Nodup := by
    have hrows : store.sources.rows.Nodup := List.Nodup.of_map _ store.sources.unique
    exact (List.perm_insertionSort _ _).nodup_iff.mpr (hrows.filter _)
  apply le_antisymm _ (List.subperm_of_subset hnodup h).length_le
  obtain ⟨p, hp, hpl⟩ := hl
  dsimp only at hpl
  rw [hpl, length_sourcesOf]
  show _ ≤ (sourcesOf s.pg institutionId store.sources.rows).length
  rw [length_sourcesOf]
  exact (hp.filter _).length_le

theorem mem_compileMessages {outbox : Outbox} {institutionId : String} {row : OutboxRow} :
    row ∈ compileMessages institutionId outbox ↔
      row ∈ outbox.rows ∧ row.message.compiles = true ∧ row.message.aggregateId = institutionId := by
  unfold compileMessages
  rw [List.mem_filter, decide_eq_true_iff]

/-- Where all compile messages are completed, the largest candidate has all sources. -/
theorem largest_of_completed {d : Compilations} (h : d.Tracked s) (hsound : d.Sound s)
    {institutionId : String}
    (hcompleted : ∀ m ∈ compileMessages institutionId d.queue.outbox, m.status = .completed)
    {r : InstitutionCandidate} (hr : r ∈ d.store.candidates.rows)
    (hi : r.institutionId = institutionId) (hlargest : d.store.Largest r) :
    r.Of s (institutionId, d.store.listInstitutionSources s.pg institutionId) := by
  subst hi
  obtain ⟨⟨i, l⟩, hx, hof⟩ := hsound.candidates r hr
  have hi : i = r.institutionId := hof.institution.symm
  subst hi
  have hloaded := hsound.loaded _ hx
  rw [← hloaded.eq_now ?_]
  · exact hof
  · intro x hx
    obtain ⟨hx, hi⟩ := mem_sourcesOf.mp hx
    obtain ⟨row, hrow, hbrings⟩ := h.brought x hx
    have haggregate : row.message.aggregateId = r.institutionId := hbrings.institution.trans hi
    have hstatus := hcompleted row (mem_compileMessages.mpr ⟨hrow, hbrings.compiles, haggregate⟩)
    obtain ⟨r', hr', l', hof', hsuffices⟩ :=
      h.completed _ row (Table.get_of_mem hrow) hbrings.compiles hstatus
    rw [haggregate] at hof'
    have hloaded' := hsuffices.loaded
    rw [haggregate] at hloaded'
    apply hloaded'.subset hloaded _ (hsuffices.brought x hx hbrings)
    calc l'.length
      _ = r'.size := hof'.inputs.symm
      _ ≤ r.size := hlargest r' (mem_candidatesOf.mpr ⟨hr', hof'.institution⟩)
      _ = l.length := hof.inputs

/-- The largest candidate is the one that is reported. -/
theorem reported_of_largest {d : Compilations} (hordered : d.store.Ordered s) (hsound : d.Sound s)
    {r : InstitutionCandidate} (hr : r ∈ d.store.candidates.rows) (hlargest : d.store.Largest r) :
    d.store.reported s r.institutionId = some r := by
  have hmem : r ∈ d.store.candidatesOf r.institutionId := mem_candidatesOf.mpr ⟨hr, rfl⟩
  have hnodup : (d.store.candidatesOf r.institutionId).Nodup :=
    List.Nodup.filter _ (List.Nodup.of_map _ d.store.candidates.unique)
  apply Sorting.latest_of_forall hnodup hmem
  intro y hy hne
  apply hordered r hr hlargest y hy
  apply lt_of_le_of_ne (hlargest y hy)
  intro hsize
  -- candidates of as many sources are of the same sources, and have one id
  obtain ⟨hy, hi⟩ := mem_candidatesOf.mp hy
  obtain ⟨⟨i, l⟩, hx, hof⟩ := hsound.candidates r hr
  obtain ⟨⟨i', l'⟩, hx', hof'⟩ := hsound.candidates y hy
  have hi : i' = i := by
    calc i'
      _ = y.institutionId := hof'.institution.symm
      _ = r.institutionId := hi
      _ = i := hof.institution
  subst hi
  have hlength : l'.length = l.length := by
    calc l'.length
      _ = y.size := hof'.inputs.symm
      _ = r.size := hsize
      _ = l.length := hof.inputs
  have hl := (hsound.loaded _ hx').eq_of_length (hsound.loaded _ hx) hlength
  subst hl
  apply hne
  apply Table.eq_of_key hy hr
  exact Prod.ext (hof'.institution.trans hof.institution.symm)
    (hof'.candidateId.trans hof.candidateId.symm)

theorem exists_largest {store : CompilerStore} {institutionId : String}
    {r : InstitutionCandidate} (hr : r ∈ store.candidatesOf institutionId) :
    ∃ r' ∈ store.candidatesOf institutionId, store.Largest r' := by
  cases hmax : (store.candidatesOf institutionId).argmax InstitutionCandidate.size with
  | none =>
    rw [List.argmax_eq_none.mp hmax] at hr
    cases hr
  | some r' =>
    have hmem := List.argmax_mem hmax
    refine ⟨r', hmem, ?_⟩
    intro x hx
    rw [(mem_candidatesOf.mp hmem).2] at hx
    exact List.le_of_mem_argmax hx hmax

theorem status_candidate (institutionId : String) (outbox : Outbox) (store : CompilerStore) :
    (getInstitutionCompilationStatus s institutionId outbox store).candidate =
      store.reported s institutionId := by
  unfold getInstitutionCompilationStatus
  cases hreported : store.reported s institutionId <;> rfl

theorem Compilations.Tracked.upToDate {d : Compilations} (h : d.Tracked s) (hsound : d.Sound s) :
    d.UpToDate s := by
  intro institutionId hcompleted
  rw [status_candidate]
  cases hreported : d.store.reported s institutionId with
  | none =>
    have hnil : d.store.candidatesOf institutionId = [] := Sorting.latest_eq_none.mp hreported
    have hmessages : compileMessages institutionId d.queue.outbox = [] := by
      rw [List.eq_nil_iff_forall_not_mem]
      intro row hrow
      obtain ⟨hmem, hcompiles, haggregate⟩ := mem_compileMessages.mp hrow
      -- the candidate of a completed message
      obtain ⟨r, hr, _, hof, _⟩ :=
        h.completed _ row (Table.get_of_mem hmem) hcompiles (hcompleted row hrow)
      have hr := mem_candidatesOf.mpr ⟨hr, hof.institution.trans haggregate⟩
      rw [hnil] at hr
      cases hr
    refine ⟨hmessages, ?_⟩
    rw [List.eq_nil_iff_forall_not_mem]
    intro x hx
    obtain ⟨hx, hi⟩ := mem_sourcesOf.mp hx
    obtain ⟨row, hrow, hbrings⟩ := h.brought x hx
    have hrow := mem_compileMessages.mpr
      ⟨hrow, hbrings.compiles, hbrings.institution.trans hi⟩
    rw [hmessages] at hrow
    cases hrow
  | some r =>
    obtain ⟨r', hr', hlargest⟩ := exists_largest (Sorting.latest_mem hreported)
    obtain ⟨hr', hi⟩ := mem_candidatesOf.mp hr'
    have hreported' := reported_of_largest h.ordered hsound hr' hlargest
    rw [hi, hreported] at hreported'
    cases hreported'
    exact (largest_of_completed h hsound hcompleted hr' hi hlargest).toCompiledFrom

/-- **The candidate that is reported is up to date** in every state of a run in which every
source is the first one with its dedupe key and every candidate is persisted in its turn. -/
theorem current_in_order (s : TransitionService) (workers : Nat → Worker)
    (moves : List CompilerMove)
    (h : Along (Compilations.next s workers) (fun d m _ => d.InOrder s m) .empty moves) :
    Along (Compilations.next s workers) (fun _ _ d => d.UpToDate s) .empty moves := by
  refine Along.of_invariant (I := fun d => d.Sound s ∧ d.Tracked s) ?_
    ⟨sound_compilations_empty, tracked_compilations_empty⟩ h
  rintro d m ⟨hsound, htracked⟩ horder
  have heffect : CompilerEffect s workers d m (d.next s workers m) := next_effect d m
  have hsound' := sound_compiler_effect hsound heffect
  have htracked' := tracked_effect htracked hsound horder heffect
  exact ⟨htracked'.upToDate hsound', hsound', htracked'⟩

end

/-! ## A worker that compiled before the other one and persists after it -/

/-- How many sources the candidate that is reported was compiled from, how many are registered,
and how the messages stand. -/
def Compilations.standing (s : TransitionService) (d : Compilations) (institutionId : String) :
    Option Nat × Nat × List OutboxStatus :=
  ((d.store.reported s institutionId).map InstitutionCandidate.size,
    (d.store.listInstitutionSources s.pg institutionId).length,
    (compileMessages institutionId d.queue.outbox).map OutboxRow.status)

/-- Each source is compiled before the next one is registered. -/
def compiledInTurn : List CompilerMove :=
  [registration "a", .queue (.claim 0 0 []), .handle 0 1 "t" "", .handle 0 2 "t" "",
    .queue (.finish 0 (.ok ())), .queue (.complete 0 3),
    registration "bb", .queue (.claim 1 4 []), .handle 1 5 "t" "", .handle 1 6 "t" "",
    .queue (.finish 1 (.ok ())), .queue (.complete 1 7)]

theorem current_compiledInTurn :
    (exec (Compilations.next sampleCompiler twoWorkers) .empty compiledInTurn).standing
        sampleCompiler "clinic" = (some 2, 2, [.completed, .completed]) ∧
      Along (Compilations.next sampleCompiler twoWorkers) (fun _ _ d => d.UpToDate sampleCompiler)
        .empty compiledInTurn :=
  ⟨by decide +kernel, current_in_order sampleCompiler twoWorkers compiledInTurn (by decide +kernel)⟩

/-- The first worker has loaded one source when the second one is registered; the second worker
compiles both, and the first one persists after it. -/
def persistedLate : List CompilerMove :=
  [registration "a", .queue (.claim 0 0 []), .handle 0 1 "t" "",
    registration "bb", .queue (.claim 1 2 []), .handle 1 3 "t" "", .handle 1 10 "t" "",
    .queue (.finish 1 (.ok ())), .queue (.complete 1 11),
    .handle 0 20 "t" "", .queue (.finish 0 (.ok ())), .queue (.complete 0 21)]

theorem size_of_upToDate {s : TransitionService} {d : Compilations} (hsound : d.Sound s)
    (h : d.UpToDate s) {institutionId : String}
    (hcompleted : ∀ m ∈ compileMessages institutionId d.queue.outbox, m.status = .completed)
    {r : InstitutionCandidate} (hreported : d.store.reported s institutionId = some r) :
    r.size = (d.store.listInstitutionSources s.pg institutionId).length := by
  have hfrom := h institutionId hcompleted
  rw [status_candidate, hreported] at hfrom
  obtain ⟨x, hx, hof⟩ := hsound.candidates r (mem_candidatesOf.mp (Sorting.latest_mem hreported)).1
  have hir : stored (irOf s x.1 x.2) = stored (irOf s institutionId
      (d.store.listInstitutionSources s.pg institutionId)) :=
    Option.some.inj (hof.ir.symm.trans hfrom.ir)
  exact hof.inputs.trans (irOf_inj (x := x) (y := (institutionId, _)) hir).2

/-- Every message is completed, and the candidate that is reported lacks a source. -/
theorem earlier_sources_reported :
    ¬ (exec (Compilations.next sampleCompiler twoWorkers) .empty persistedLate).UpToDate
      sampleCompiler := by
  intro h
  have hstanding : (exec (Compilations.next sampleCompiler twoWorkers) .empty persistedLate).standing
      sampleCompiler "clinic" = (some 1, 2, [.completed, .completed]) := by decide +kernel
  obtain ⟨hsize, hrest⟩ := Prod.mk.inj hstanding
  obtain ⟨hlength, hstatus⟩ := Prod.mk.inj hrest
  obtain ⟨r, hreported, hr⟩ := Option.map_eq_some_iff.mp hsize
  have hsame := size_of_upToDate (sound_compilations _) h ?_ hreported
  · rw [hr, hlength] at hsame
    cases hsame
  · intro m hm
    have hm := List.mem_map_of_mem (f := OutboxRow.status) hm
    rw [hstatus] at hm
    simpa using hm

end Edon.Platform
