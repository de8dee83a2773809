import EdonPlatform.Platform.Compiler

/- Compilation is effectively once. The outbox delivers a compile message at least once, and
   several workers may be at work on one message; but the id of a candidate is made from
   what was compiled, and the candidate and its event are written in one transaction.

   What is proved: `compiled_once` — after any interleaving, every set of sources that was
   loaded and persisted has exactly one candidate, every candidate exactly one event that
   names it, and every event exactly one candidate. -/
namespace Edon.Platform
open Transition Js Fallible

section
variable (s : TransitionService) (workers : Nat → Worker)

/-! ## What a move can do -/

inductive CompilerEffect (d : Compilations) : CompilerMove → Compilations → Prop where
  | none {m : CompilerMove} : CompilerEffect d m d
  | registered {institutionId : String} {source : InstitutionSource} {r : Request}
      {inserted : Bool} {outbox : Outbox} {sources : Table InstitutionSource.key}
      (hsource : r.source s institutionId = .ok (some source))
      (hinsert : d.store.sources.insert source.stored = some sources)
      (henqueue : enqueueOutbox r.now (source.message s r) d.queue.outbox =
        .ok (inserted, outbox)) :
      CompilerEffect d (.postSources institutionId r) { d with
        queue := { d.queue with outbox }, store := { d.store with sources } }
  | queue {m : CompilerMove} {a : Action} {q : Queue} {handler : Nat → Compiling}
      (heffect : Effect workers d.queue a q)
      (hmessage : ∀ now message, a = .enqueue now message → message.compiles = true →
        message.institutionId s = .ok message.aggregateId)
      (hreturned : ∀ w, a = .finish w (.ok ()) → d.handler w = .returned)
      (hhandler : ∀ w, handler w = d.handler w ∨ handler w = .start)
      (hclaim : ∀ w now locked, a = .claim w now locked → handler w = .start) :
      CompilerEffect d m { d with queue := q, handler }
  | loaded {m : CompilerMove} {w : Nat} {claim : OutboxRow} {institutionId : String}
      (hphase : d.queue.phase w = .running claim) (hhandler : d.handler w = .start)
      (hid : claim.message.institutionId s = .ok institutionId) :
      CompilerEffect d m { d with
        handler := Function.update d.handler w
          (.loaded institutionId (d.store.listInstitutionSources s.pg institutionId)) }
  | passed {m : CompilerMove} {w : Nat} {claim : OutboxRow} (hphase : d.queue.phase w = .running claim)
      (hother : d.handler w = .start → claim.message.compiles = false)
      (hloaded : ∀ i sources, d.handler w ≠ .loaded i sources) :
      CompilerEffect d m { d with handler := Function.update d.handler w .returned }
  | persisted {w : Nat} {claim : OutboxRow} {now : Int} {recordedAt error institutionId : String}
      {sources : List InstitutionSource} {store : CompilerStore}
      (hphase : d.queue.phase w = .running claim)
      (hhandler : d.handler w = .loaded institutionId sources)
      (hpersist : persistCandidate s (workers w) recordedAt claim.message
        (candidate s now claim.message institutionId sources) d.store = .ok store) :
      CompilerEffect d (.handle w now recordedAt error) { d with
        store
        handler := Function.update d.handler w .returned
        persisted := d.persisted ++ [(institutionId, sources)] }

variable {s workers}

theorem putInstitutionSource_ok {pg : Postgres} {source : InstitutionSource}
    {store store' : CompilerStore} {inserted : Bool}
    (h : store.putInstitutionSource pg source = .ok (inserted, store')) :
    (inserted = false ∧ store' = store) ∨ ∃ sources, inserted = true ∧
      store' = { store with sources } ∧
      store.sources.insert source.stored = some sources := by
  obtain ⟨_, _, h⟩ := bind_ok.mp h
  obtain ⟨_, _, h⟩ := bind_ok.mp h
  obtain ⟨_, _, h⟩ := bind_ok.mp h
  have h := Except.ok.inj h
  split at h
  · next sources hinsert =>
    cases h
    exact .inr ⟨sources, rfl, rfl, hinsert⟩
  · cases h
    exact .inl ⟨rfl, rfl⟩

theorem postSources_effect {d : Compilations} {institutionId : String} {r : Request}
    {reply : Reply} {outbox : Outbox} {store : CompilerStore}
    (h : postSources s institutionId r d.queue.outbox d.store = .ok (reply, outbox, store)) :
    CompilerEffect s workers d (.postSources institutionId r)
      { d with queue := { d.queue with outbox }, store } := by
  obtain ⟨source, hsource, h⟩ := bind_ok.mp h
  cases source with
  | none =>
    cases h
    exact .none
  | some source =>
    obtain ⟨⟨inserted, store'⟩, hput, h⟩ := bind_ok.mp h
    rcases putInstitutionSource_ok hput with ⟨rfl, rfl⟩ | ⟨sources, rfl, rfl, hinsert⟩
    · cases h
      exact .none
    · obtain ⟨⟨queued, outbox'⟩, henqueue, h⟩ := bind_ok.mp h
      cases h
      exact .registered hsource hinsert henqueue

theorem postCompilations_effect {d : Compilations} {r : Request} {reply : Reply} {outbox : Outbox}
    (h : postCompilations s r d.queue.outbox = .ok (reply, outbox)) :
    CompilerEffect s workers d (.postCompilations r)
      { d with queue := { d.queue with outbox } } := by
  obtain ⟨institutionId, _, h⟩ := bind_ok.mp h
  split at h
  · cases h
    exact .none
  · obtain ⟨⟨queued, outbox'⟩, henqueue, h⟩ := bind_ok.mp h
    cases h
    refine .queue (.enqueue henqueue) ?_ nofun (fun _ => .inl rfl) nofun
    intro now m ha _
    cases ha
    rfl

theorem compileInstitution_effect {d : Compilations} {w : Nat} {now : Int}
    {recordedAt error : String} {claim : OutboxRow} {h' : Compiling} {store : CompilerStore}
    (hphase : d.queue.phase w = .running claim)
    (hok : compileInstitution s (workers w) now recordedAt claim.message d.store (d.handler w) =
      .ok (h', store)) :
    CompilerEffect s workers d (.handle w now recordedAt error) { d with
      store
      handler := Function.update d.handler w h'
      persisted := d.persisted ++ (d.handler w).persists } := by
  cases hhandler : d.handler w with
  | start =>
    rw [hhandler] at hok
    simp only [compileInstitution] at hok
    simp only [Compiling.persists, List.append_nil]
    split at hok
    · obtain ⟨institutionId, hid, hok⟩ := bind_ok.mp hok
      cases hok
      exact .loaded hphase hhandler hid
    · next hother =>
      cases hok
      refine .passed hphase (fun _ => by simpa using hother) ?_
      intro i sources hloaded
      rw [hhandler] at hloaded
      cases hloaded
  | loaded institutionId sources =>
    rw [hhandler] at hok
    obtain ⟨store', hpersist, hok⟩ := bind_ok.mp hok
    cases hok
    exact .persisted hphase hhandler hpersist
  | returned =>
    rw [hhandler] at hok
    cases hok
    simp only [Compiling.persists, List.append_nil]
    refine .passed hphase ?_ ?_
    · intro hstart
      rw [hhandler] at hstart
      cases hstart
    · intro i sources hloaded
      rw [hhandler] at hloaded
      cases hloaded

/-- **Everything a move can do.** -/
theorem next_effect (d : Compilations) (m : CompilerMove) :
    CompilerEffect s workers d m (d.next s workers m) := by
  cases m with
  | postSources institutionId r =>
    dsimp only [Compilations.next]
    split
    · next hpost => exact postSources_effect hpost
    · exact .none
  | postCompilations r =>
    dsimp only [Compilations.next]
    split
    · next hpost => exact postCompilations_effect hpost
    · exact .none
  | queue a =>
    unfold Compilations.next
    split
    · next heq => cases heq
    · next heq => cases heq
    · next now message heq =>
      cases heq
      split
      · exact .none
      · next hother =>
        refine .queue (step_effect workers d.queue _) ?_ nofun (fun _ => .inl rfl) nofun
        intro now' m ha hcompiles
        cases ha
        exact absurd hcompiles hother
    · next w heq =>
      cases heq
      split
      · next hreturned =>
        refine .queue (step_effect workers d.queue _) nofun ?_ (fun _ => .inl rfl) nofun
        intro w' ha
        cases ha
        exact hreturned
      · exact .none
    · next w now locked heq =>
      cases heq
      split
      · refine .queue (step_effect workers d.queue _) nofun nofun ?_ ?_
        · intro w'
          by_cases hw : w' = w
          · right
            rw [hw, Function.update_self]
          · left
            rw [Function.update_of_ne hw]
        · intro w' now' locked' ha
          cases ha
          rw [Function.update_self]
      · exact .none
    · next a' henqueue hfinish hclaim heq =>
      cases heq
      refine .queue (step_effect workers d.queue _) ?_ ?_ (fun _ => .inl rfl) ?_
      · intro now m ha
        exact absurd ha (henqueue now m)
      · intro w ha
        exact absurd ha (hfinish w)
      · intro w now locked ha
        exact absurd ha (hclaim w now locked)
    · next heq => cases heq
  | handle w now recordedAt error =>
    dsimp only [Compilations.next]
    split
    · next claim hphase =>
      split
      · next hok => exact compileInstitution_effect hphase hok
      · exact .queue (step_effect workers d.queue (.finish w (.error error))) nofun nofun
          (fun _ => .inl rfl) nofun
    · exact .none

/-! ## Sources that were loaded -/

variable (s) in
/-- The list is what the institution's sources were at some time: rows are only appended. -/
def CompilerStore.Loaded (store : CompilerStore) (x : String × List InstitutionSource) : Prop :=
  ∃ p, p <+: store.sources.rows ∧ x.2 = sourcesOf s.pg x.1 p

theorem CompilerStore.Loaded.append {store store' : CompilerStore}
    {x : String × List InstitutionSource} (h : store.Loaded s x)
    (happend : store.sources.rows <+: store'.sources.rows) : store'.Loaded s x := by
  obtain ⟨p, hp, hx⟩ := h
  exact ⟨p, hp.trans happend, hx⟩

theorem loaded_now (store : CompilerStore) (institutionId : String) :
    store.Loaded s (institutionId, store.listInstitutionSources s.pg institutionId) :=
  ⟨store.sources.rows, List.prefix_refl _, rfl⟩

theorem length_sourcesOf (pg : Postgres) (institutionId : String) (rows : List InstitutionSource) :
    (sourcesOf pg institutionId rows).length =
      (rows.filter fun r => r.institutionId = institutionId).length :=
  List.length_insertionSort ..

/-- Of two such lists of one institution, one extends the other; so the number of sources tells
them apart. -/
theorem CompilerStore.Loaded.eq_of_length {store : CompilerStore} {institutionId : String}
    {l m : List InstitutionSource} (hl : store.Loaded s (institutionId, l))
    (hm : store.Loaded s (institutionId, m)) (h : l.length = m.length) : l = m := by
  obtain ⟨p, hp, hl⟩ := hl
  obtain ⟨q, hq, hm⟩ := hm
  dsimp only at hl hm
  subst hl hm
  rw [length_sourcesOf, length_sourcesOf] at h
  unfold sourcesOf
  rcases List.prefix_or_prefix_of_prefix hp hq with hpq | hqp
  · rw [(hpq.filter _).eq_of_length h]
  · rw [(hqp.filter _).eq_of_length h.symm]

/-- What a candidate's `ir` says it was compiled from. -/
structure InstitutionCandidate.CompiledFrom (s : TransitionService) (r : InstitutionCandidate)
    (x : String × List InstitutionSource) : Prop where
  institution : r.institutionId = x.1
  ir : field r.payload "ir" = some (Js.stored (irOf s x.1 x.2))

theorem length_storedList (xs : List Value) : (storedList xs).length = xs.length := by
  induction xs with
  | nil => rfl
  | cons x xs ih => simp [storedList, ih]

/-- The IR of a set of sources tells its institution and how many sources there are. -/
theorem irOf_inj {x y : String × List InstitutionSource}
    (h : stored (irOf s x.1 x.2) = stored (irOf s y.1 y.2)) :
    x.1 = y.1 ∧ x.2.length = y.2.length := by
  simp only [irOf, compiledIr, stored, storedFields, Value.obj.injEq, List.cons.injEq,
    Prod.mk.injEq, Value.str.injEq, Value.arr.injEq, true_and] at h
  refine ⟨h.1, ?_⟩
  have hlength := congrArg List.length h.2.1
  rwa [length_storedList, length_storedList, List.length_map, List.length_map,
    List.length_insertionSort, List.length_insertionSort] at hlength

theorem loaded_eq_of_ir {store : CompilerStore} {x y : String × List InstitutionSource}
    (hx : store.Loaded s x) (hy : store.Loaded s y)
    (h : stored (irOf s x.1 x.2) = stored (irOf s y.1 y.2)) : x = y := by
  obtain ⟨hid, hlength⟩ := irOf_inj h
  obtain ⟨i, l⟩ := x
  obtain ⟨j, m⟩ := y
  cases hid
  rw [hx.eq_of_length hy hlength]

/-! ## Persisting -/

/-- The row is the candidate of these sources. -/
structure InstitutionCandidate.Of (s : TransitionService) (r : InstitutionCandidate)
    (x : String × List InstitutionSource) : Prop extends InstitutionCandidate.CompiledFrom s r x where
  candidateId : r.candidateId = candidateIdOf s (irOf s x.1 x.2)
  inputs : r.inputSourceHashes.length = x.2.length

theorem candidate_of (now : Int) (m : OutboxMessage) (institutionId : String)
    (sources : List InstitutionSource) :
    (candidate s now m institutionId sources).stored.Of s (institutionId, sources) where
  institution := rfl
  ir := rfl
  candidateId := rfl
  inputs := by
    show ((sources.insertionSort (orderedBefore s)).map InstitutionSource.inputHash).length = _
    rw [List.length_map, List.length_insertionSort]

/-- The event tells of the candidate. -/
structure EventEnvelope.Names (e : EventEnvelope) (candidateId : String) : Prop where
  eventType : e.eventType = .institutionCandidateCompiled
  payload : field e.payload "candidate_id" = some (.str candidateId)

theorem createInstitutionCandidate_rows (c : InstitutionCandidate) (store : CompilerStore) :
    (∃ r ∈ (store.createInstitutionCandidate c).candidates.rows, r.key = c.key) ∧
    (∀ r, r ∈ (store.createInstitutionCandidate c).candidates.rows ↔
      r ∈ store.candidates.rows ∨
        (r = c.stored ∧ ∀ r' ∈ store.candidates.rows, r'.key ≠ c.key)) ∧
    (store.createInstitutionCandidate c).sources = store.sources ∧
    (store.createInstitutionCandidate c).journal = store.journal := by
  unfold CompilerStore.createInstitutionCandidate
  cases hinsert : store.candidates.insert c.stored with
  | none =>
    have htaken : ∃ r ∈ store.candidates.rows, r.key = c.key := by
      by_contra hfree
      push Not at hfree
      obtain ⟨u, hu⟩ := Table.insert_of_get (r := c.stored) (Table.get_eq_none.mpr hfree)
      rw [hinsert] at hu
      cases hu
    refine ⟨htaken, ?_, rfl, rfl⟩
    intro r
    constructor
    · exact .inl
    · rintro (hr | ⟨_, hfree⟩)
      · exact hr
      · obtain ⟨r', hr', hkey⟩ := htaken
        exact absurd hkey (hfree r' hr')
  | some candidates =>
    obtain ⟨_, hfree⟩ := Table.rows_insert hinsert
    refine ⟨⟨c.stored, (Table.mem_insert hinsert).mpr (.inr rfl), rfl⟩, ?_, rfl, rfl⟩
    intro r
    rw [Table.mem_insert hinsert]
    exact or_congr_right (and_iff_left (Table.get_eq_none.mp hfree)).symm

theorem appendEvent_rows {pg : Postgres} {e : EventEnvelope} {store store' : CompilerStore}
    (h : store.appendEvent pg e = .ok store') :
    store'.sources = store.sources ∧ store'.candidates = store.candidates ∧
    (∃ x ∈ store'.journal.rows, x.eventId = e.eventId) ∧
    (∀ x ∈ store.journal.rows, x ∈ store'.journal.rows) ∧
    ∀ x ∈ store'.journal.rows, x ∈ store.journal.rows ∨ x = e.journaled := by
  obtain ⟨⟨appended, db⟩, happend, h⟩ := bind_ok.mp h
  cases h
  obtain ⟨_, _, happend⟩ := bind_ok.mp happend
  have happend := Except.ok.inj happend
  split at happend
  · next journal hinsert =>
    cases happend
    refine ⟨rfl, rfl, ⟨e.journaled, (Table.mem_insert hinsert).mpr (.inr rfl), rfl⟩, ?_, ?_⟩
    · intro x hx
      exact (Table.mem_insert hinsert).mpr (.inl hx)
    · intro x hx
      exact (Table.mem_insert hinsert).mp hx
  · next hinsert =>
    cases happend
    refine ⟨rfl, rfl, ?_, fun x hx => hx, fun x hx => .inl hx⟩
    by_contra hfree
    push Not at hfree
    obtain ⟨u, hu⟩ := Table.insert_of_get (r := e.journaled) (Table.get_eq_none.mpr hfree)
    rw [hinsert] at hu
    cases hu

/-! ## The invariant -/

/-- The event is the one of a candidate of these sources. -/
structure EventEnvelope.Of (s : TransitionService) (e : EventEnvelope)
    (x : String × List InstitutionSource) : Prop
    extends EventEnvelope.Names e (candidateIdOf s (irOf s x.1 x.2)) where
  eventId : e.eventId = candidateEventId (candidateIdOf s (irOf s x.1 x.2))

variable (s) in
/-- Candidates and events are those of what was persisted. -/
structure Compilations.Sound (d : Compilations) : Prop where
  candidates : ∀ r ∈ d.store.candidates.rows, ∃ x ∈ d.persisted, r.Of s x
  compiled : ∀ x ∈ d.persisted, ∃ r ∈ d.store.candidates.rows,
    r.key = (x.1, candidateIdOf s (irOf s x.1 x.2))
  events : ∀ e ∈ d.store.journal.rows, ∃ x ∈ d.persisted, e.Of s x
  journaled : ∀ x ∈ d.persisted, ∃ e ∈ d.store.journal.rows,
    e.eventId = candidateEventId (candidateIdOf s (irOf s x.1 x.2))
  loaded : ∀ x ∈ d.persisted, d.store.Loaded s x
  inHand : ∀ w institutionId sources, d.handler w = .loaded institutionId sources →
    d.store.Loaded s (institutionId, sources)

theorem sound_compilations_empty : Compilations.empty.Sound s where
  candidates := fun _ h => nomatch h
  compiled := fun _ h => nomatch h
  events := fun _ h => nomatch h
  journaled := fun _ h => nomatch h
  loaded := fun _ h => nomatch h
  inHand := fun _ _ _ h => nomatch h

/-- Only the handlers change, and what one of them has newly loaded are the sources as they are. -/
theorem Compilations.Sound.handlers {d : Compilations} (h : d.Sound s) (q : Queue)
    {handler : Nat → Compiling}
    (hhandler : ∀ w i l, handler w = .loaded i l → d.handler w = .loaded i l ∨
      d.store.Loaded s (i, l)) : Compilations.Sound s { d with queue := q, handler } where
  candidates := h.candidates
  compiled := h.compiled
  events := h.events
  journaled := h.journaled
  loaded := h.loaded
  inHand w i l hw := by
    rcases hhandler w i l hw with hsame | hnew
    · exact h.inHand w i l hsame
    · exact hnew

theorem sound_persisted {d : Compilations} (h : d.Sound s) {w : Worker} {now : Int}
    {recordedAt institutionId : String} {m : OutboxMessage} {sources : List InstitutionSource}
    {store : CompilerStore} {handler : Nat → Compiling}
    (hloaded : d.store.Loaded s (institutionId, sources))
    (hhandler : ∀ w i l, handler w = .loaded i l → d.handler w = .loaded i l)
    (hpersist : persistCandidate s w recordedAt m (candidate s now m institutionId sources)
      d.store = .ok store) :
    Compilations.Sound s { d with
      store, handler, persisted := d.persisted ++ [(institutionId, sources)] } := by
  obtain ⟨htaken, hrows, hsources, hjournal⟩ :=
    createInstitutionCandidate_rows (candidate s now m institutionId sources) d.store
  obtain ⟨hsources', hcandidates, hevent, hkept, hevents⟩ := appendEvent_rows hpersist
  rw [hsources] at hsources'
  rw [hjournal] at hkept hevents
  have hlast : (institutionId, sources) ∈ d.persisted ++ [(institutionId, sources)] :=
    List.mem_append_right _ (List.mem_singleton_self _)
  have hold : ∀ x ∈ d.persisted, x ∈ d.persisted ++ [(institutionId, sources)] :=
    fun x hx => List.mem_append_left _ hx
  have hkeep : ∀ x, d.store.Loaded s x → store.Loaded s x := by
    intro x hx
    exact hx.append (hsources' ▸ List.prefix_refl _)
  refine ⟨?_, ?_, ?_, ?_, ?_, ?_⟩
  · intro r hr
    rw [hcandidates, hrows] at hr
    rcases hr with hr | ⟨rfl, _⟩
    · obtain ⟨x, hx, hof⟩ := h.candidates r hr
      exact ⟨x, hold x hx, hof⟩
    · exact ⟨_, hlast, candidate_of now m institutionId sources⟩
  · intro x hx
    rw [hcandidates]
    rcases List.mem_append.mp hx with hx | hx
    · obtain ⟨r, hr, hkey⟩ := h.compiled x hx
      exact ⟨r, (hrows r).mpr (.inl hr), hkey⟩
    · rw [List.mem_singleton.mp hx]
      exact htaken
  · intro e he
    rcases hevents e he with he | rfl
    · obtain ⟨x, hx, hof⟩ := h.events e he
      exact ⟨x, hold x hx, hof⟩
    · exact ⟨_, hlast, ⟨⟨rfl, rfl⟩, rfl⟩⟩
  · intro x hx
    rcases List.mem_append.mp hx with hx | hx
    · obtain ⟨e, he, hid⟩ := h.journaled x hx
      exact ⟨e, hkept e he, hid⟩
    · rw [List.mem_singleton.mp hx]
      exact hevent
  · intro x hx
    rcases List.mem_append.mp hx with hx | hx
    · exact hkeep x (h.loaded x hx)
    · rw [List.mem_singleton.mp hx]
      exact hkeep _ hloaded
  · intro w i l hw
    exact hkeep _ (h.inHand w i l (hhandler w i l hw))

/-- A handler that moves on to something else than a list of sources. -/
theorem update_loaded {handler : Nat → Compiling} {w w' : Nat} {c : Compiling} {i : String}
    {l : List InstitutionSource} (h : Function.update handler w c w' = .loaded i l) :
    handler w' = .loaded i l ∨ (w' = w ∧ c = .loaded i l) := by
  by_cases hw : w' = w
  · subst hw
    rw [Function.update_self] at h
    exact .inr ⟨rfl, h⟩
  · rw [Function.update_of_ne hw] at h
    exact .inl h

theorem sound_compiler_effect {d d' : Compilations} {m : CompilerMove} (h : d.Sound s)
    (heffect : CompilerEffect s workers d m d') : d'.Sound s := by
  cases heffect with
  | none => exact h
  | @registered _ _ _ _ _ sources _ hinsert _ =>
    have hprefix : d.store.sources.rows <+: sources.rows := by
      rw [(Table.rows_insert hinsert).1]
      exact List.prefix_append ..
    exact {
      candidates := h.candidates
      compiled := h.compiled
      events := h.events
      journaled := h.journaled
      loaded := fun x hx => (h.loaded x hx).append hprefix
      inHand := fun w i l hw => (h.inHand w i l hw).append hprefix }
  | queue _ _ _ hhandler _ =>
    apply h.handlers
    intro w i l hw
    rcases hhandler w with hsame | hstart
    · exact .inl (hsame ▸ hw)
    · rw [hstart] at hw
      cases hw
  | @loaded _ w claim institutionId _ _ _ =>
    apply h.handlers
    intro w' i l hw
    rcases update_loaded hw with hw | ⟨_, hw⟩
    · exact .inl hw
    · cases hw
      exact .inr (loaded_now d.store institutionId)
  | passed _ _ _ =>
    apply h.handlers
    intro w' i l hw
    rcases update_loaded hw with hw | ⟨_, hw⟩
    · exact .inl hw
    · cases hw
  | persisted _ hhandler hpersist =>
    refine sound_persisted h (h.inHand _ _ _ hhandler) ?_ hpersist
    intro w' i l hw
    rcases update_loaded hw with hw | ⟨_, hw⟩
    · exact hw
    · cases hw

theorem sound_compilations (moves : List CompilerMove) :
    (exec (Compilations.next s workers) .empty moves).Sound s :=
  exec_invariant (fun d m h => sound_compiler_effect h (next_effect d m)) sound_compilations_empty
    moves

/-! ## Exactly one -/

variable (s) in
/-- Different IRs that were persisted have different candidate ids. -/
def Compilations.Injective (d : Compilations) : Prop :=
  ∀ x ∈ d.persisted, ∀ y ∈ d.persisted,
    candidateIdOf s (irOf s x.1 x.2) = candidateIdOf s (irOf s y.1 y.2) →
      irOf s x.1 x.2 = irOf s y.1 y.2

variable (s) in
/-- Every set of sources that was persisted has one candidate, of which one event tells. -/
structure Compilations.Once (d : Compilations) : Prop where
  candidate : ∀ x ∈ d.persisted, ∃! r, r ∈ d.store.candidates.rows ∧ r.CompiledFrom s x
  distinct : ∀ x ∈ d.persisted, ∀ y ∈ d.persisted, ∀ r : InstitutionCandidate,
    r.CompiledFrom s x → r.CompiledFrom s y → x = y
  named : ∀ r ∈ d.store.candidates.rows,
    ∃! e, e ∈ d.store.journal.rows ∧ e.Names r.candidateId
  names : ∀ e ∈ d.store.journal.rows, e.eventType = .institutionCandidateCompiled →
    ∃! r, r ∈ d.store.candidates.rows ∧ e.Names r.candidateId

theorem EventEnvelope.Names.eq {e : EventEnvelope} {a b : String} (ha : e.Names a) (hb : e.Names b) :
    a = b := by
  have h := ha.payload.symm.trans hb.payload
  cases h
  rfl

/-- The candidate with the key of a persisted set is compiled from it. -/
theorem of_key {d : Compilations} (h : d.Sound s) (hinj : d.Injective s)
    {x : String × List InstitutionSource} (hx : x ∈ d.persisted) {r : InstitutionCandidate}
    (hr : r ∈ d.store.candidates.rows) (hid : r.candidateId = candidateIdOf s (irOf s x.1 x.2)) :
    r.CompiledFrom s x := by
  obtain ⟨y, hy, hof⟩ := h.candidates r hr
  have hir := hinj y hy x hx (hof.candidateId.symm.trans hid)
  have hinstitution := (irOf_inj (congrArg stored hir)).1
  exact ⟨hof.institution.trans hinstitution, by rw [hof.ir, hir]⟩

theorem key_of_compiledFrom {d : Compilations} (h : d.Sound s)
    {x : String × List InstitutionSource} (hx : x ∈ d.persisted) {r : InstitutionCandidate}
    (hr : r ∈ d.store.candidates.rows) (hfrom : r.CompiledFrom s x) :
    r.key = (x.1, candidateIdOf s (irOf s x.1 x.2)) := by
  obtain ⟨y, hy, hof⟩ := h.candidates r hr
  have hir : stored (irOf s y.1 y.2) = stored (irOf s x.1 x.2) :=
    Option.some.inj (hof.ir.symm.trans hfrom.ir)
  rw [loaded_eq_of_ir (h.loaded x hx) (h.loaded y hy) hir.symm]
  exact Prod.ext hof.institution hof.candidateId

theorem Compilations.Sound.once {d : Compilations} (h : d.Sound s) (hinj : d.Injective s) :
    d.Once s where
  candidate x hx := by
    obtain ⟨r, hr, hkey⟩ := h.compiled x hx
    have hid : r.candidateId = candidateIdOf s (irOf s x.1 x.2) := congrArg Prod.snd hkey
    refine ⟨r, ⟨hr, of_key h hinj hx hr hid⟩, ?_⟩
    rintro r' ⟨hr', hfrom⟩
    exact Table.eq_of_key hr' hr ((key_of_compiledFrom h hx hr' hfrom).trans hkey.symm)
  distinct x hx y hy r hxr hyr :=
    loaded_eq_of_ir (h.loaded x hx) (h.loaded y hy) (Option.some.inj (hxr.ir.symm.trans hyr.ir))
  named r hr := by
    obtain ⟨y, hy, hof⟩ := h.candidates r hr
    obtain ⟨e, he, hid⟩ := h.journaled y hy
    obtain ⟨z, _, hez⟩ := h.events e he
    have hsame : candidateIdOf s (irOf s z.1 z.2) = r.candidateId := by
      rw [hof.candidateId]
      exact (append_right_inj _).mp (hez.eventId.symm.trans hid)
    refine ⟨e, ⟨he, hsame ▸ hez.toNames⟩, ?_⟩
    rintro e' ⟨he', hnames⟩
    obtain ⟨z', _, hez'⟩ := h.events e' he'
    apply Table.eq_of_key he' he
    rw [hez'.eventId, hez.eventId, hsame, hez'.toNames.eq hnames]
  names e he _ := by
    obtain ⟨z, hz, hez⟩ := h.events e he
    obtain ⟨r, hr, hkey⟩ := h.compiled z hz
    have hid : r.candidateId = candidateIdOf s (irOf s z.1 z.2) := congrArg Prod.snd hkey
    refine ⟨r, ⟨hr, hid ▸ hez.toNames⟩, ?_⟩
    rintro r' ⟨hr', hnames⟩
    have hid' : r'.candidateId = candidateIdOf s (irOf s z.1 z.2) := hnames.eq hez.toNames
    exact Table.eq_of_key hr' hr
      ((key_of_compiledFrom h hz hr' (of_key h hinj hz hr' hid')).trans hkey.symm)

/-- **Compilation is effectively once**, over any interleaving of registrations, requests,
crashes, expired leases and redeliveries, if different IRs have different candidate ids. -/
theorem compiled_once (s : TransitionService) (workers : Nat → Worker) (moves : List CompilerMove)
    (hinj : (exec (Compilations.next s workers) .empty moves).Injective s) :
    (exec (Compilations.next s workers) .empty moves).Once s :=
  (sound_compilations moves).once hinj

end

/-! ## A worker that crashes after its commit -/

/-- A service whose digest of a text is its length, and which writes nothing of a scalar. -/
def sampleCompiler : TransitionService where
  js := Runtime.sample
  pg := Service.sample.pg
  tenantId := "northstar"
  sha256 text := toString text.length
  stringify _ := ""

def registration (sourceId : String) : CompilerMove :=
  .postSources "clinic" {
    body := .obj [("source_id", .str sourceId), ("source_version", .str "1"),
      ("effective_from", .str "2026-01-01T00:00:00Z"), ("content_hash", .str "sha256:1"),
      ("provenance", .str "upload"), ("sensitivity", .str "INTERNAL")]
    bind := ⟨"admin-1", "corr-1", "trace-1", "key-1", none, "2026-01-01T00:00:00Z"⟩
    principal := ⟨"admin-1", "HUMAN", none⟩
    now := 0 }

/-- One source is compiled and committed, the worker crashes, and another one compiles again;
then a second source is registered and compiled. -/
def crashedAfterCommit : List CompilerMove :=
  [registration "a", .queue (.claim 0 0 []), .handle 0 1 "t" "", .handle 0 2 "t" "",
    .queue (.stop 0), .queue (.claim 1 30000 []), .handle 1 30001 "t" "", .handle 1 30002 "t" "",
    .queue (.finish 1 (.ok ())), .queue (.complete 1 30003),
    registration "bb", .queue (.claim 0 40000 []), .handle 0 40001 "t" "", .handle 0 40002 "t" ""]

/-- The id, the institution and the number of sources of what was persisted. -/
def Compilations.summary (s : TransitionService) (d : Compilations) : List (String × String × Nat) :=
  d.persisted.map fun x => (candidateIdOf s (irOf s x.1 x.2), x.1, x.2.length)

theorem injective_of_summary {s : TransitionService} {d : Compilations} (h : d.Sound s)
    (hsummary : ∀ a ∈ d.summary s, ∀ b ∈ d.summary s, a.1 = b.1 → a = b) : d.Injective s := by
  intro x hx y hy hid
  obtain ⟨i, l⟩ := x
  obtain ⟨j, m⟩ := y
  have heq := hsummary _ (List.mem_map_of_mem hx) _ (List.mem_map_of_mem hy) hid
  obtain ⟨hij, hlength⟩ := Prod.mk.inj (Prod.mk.inj heq).2
  dsimp only at hij hlength
  subst hij
  rw [(h.loaded _ hx).eq_of_length (h.loaded _ hy) hlength]

theorem compiled_once_after_crash :
    (exec (Compilations.next sampleCompiler twoWorkers) .empty crashedAfterCommit).summary
        sampleCompiler = [("candidate-sha256:26", "clinic", 1), ("candidate-sha256:26", "clinic", 1),
          ("candidate-sha256:38", "clinic", 2)] ∧
      (exec (Compilations.next sampleCompiler twoWorkers) .empty crashedAfterCommit).Once
        sampleCompiler := by
  have hsummary : (exec (Compilations.next sampleCompiler twoWorkers) .empty
      crashedAfterCommit).summary sampleCompiler = [("candidate-sha256:26", "clinic", 1),
        ("candidate-sha256:26", "clinic", 1), ("candidate-sha256:38", "clinic", 2)] := by
    decide +kernel
  refine ⟨hsummary, compiled_once _ _ _ (injective_of_summary (sound_compilations _) ?_)⟩
  rw [hsummary]
  decide

end Edon.Platform
