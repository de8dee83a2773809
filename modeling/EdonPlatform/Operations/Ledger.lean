import EdonPlatform.Operations.Control

/- One world as the operations see it: its version, its operational state and the
   requests of its events. `Ledger.append` is `append_event` (edon/world/store.py) on
   that view: a repeated event id writes nothing, the caller's expected version must
   be the current one, and the changes are applied all or none.

   What is proved: `append_cases` says all an append can do, `Ledger.Committed` names
   the case in which it records an event, and `run_cases` is the same for a whole
   call, which reads the state and appends with nothing in between. -/
namespace Edon.Operations
open World

/-- What `request_sha256` is the hash of; the tenant and the world are fixed. -/
structure Request where
  eventId : String
  eventType : String
  actorId : String
  expectedVersion : Int
  changes : List Change
  authorizationRef : String
  sourceLineage : List String
  deriving DecidableEq

structure Entry where
  request : Request
  resultingVersion : Int
  deriving DecidableEq

/-- A world: `state` is absent until its operational state is initialized. -/
structure Ledger where
  version : Int
  state : Option OperationalState
  entries : List Entry
  deriving DecidableEq

/-- The request of a creation. Its mutation replaces the root, which no operation
does again, so that its changes are left empty. -/
def creationRequest (actorId authorizationRef : String) (sourceLineage : List String) :
    Request where
  eventId := "WORLD_CREATED"
  eventType := "WORLD_CREATED"
  actorId := actorId
  expectedVersion := -1
  changes := []
  authorizationRef := authorizationRef
  sourceLineage := sourceLineage

/-- A world `create_world` made, with or without operational state. -/
def createdLedger (state : Option OperationalState) (actorId authorizationRef : String)
    (sourceLineage : List String) : Ledger where
  version := 0
  state := state
  entries := [⟨creationRequest actorId authorizationRef sourceLineage, 0⟩]

def bootstrapWorld (py : Python) (institution : Json) (actorId authorizationRef : String)
    (sourceLineage : List String) (timestamp : Option String) (now : Instant) :
    Except PyError Ledger := do
  let stamp ← timestampOr py timestamp now "timestamp"
  let _ ← opObject institution "institution"
  let actorId ← worldIdentifier actorId "actor_id"
  let authorizationRef ← worldAuthorizationRef authorizationRef
  let lineages ← lineages sourceLineage
  return createdLedger (some (operationalState stamp)) actorId authorizationRef lineages

/-- The checks of `append_event` before its transaction. -/
def Draft.request (d : Draft) (k : Keywords) : Except PyError Request := do
  let eventId ← worldIdentifier k.eventId "event_id"
  let eventType ← worldIdentifier d.eventType "event_type"
  let actorId ← worldIdentifier k.actorId "actor_id"
  let authorizationRef ← worldAuthorizationRef k.authorizationRef
  require (d.changes.all (fun c => c.path.all partOk))
    (worldError "mutation path contains an invalid key")
  let lineages ← lineages d.sourceLineage
  return {
    eventId, eventType, actorId
    expectedVersion := k.expectedVersion
    changes := d.changes
    authorizationRef
    sourceLineage := lineages }

/-- Its transaction, which returns the version of the snapshot the call returns. -/
def Ledger.appendTx (l : Ledger) (request : Request) : Except PyError (Int × Ledger) :=
  match l.entries.find? (fun e => e.request.eventId = request.eventId) with
  | some duplicate =>
    if duplicate.request ≠ request then
      .error (worldError "event identity is already bound to different content")
    else .ok (duplicate.resultingVersion, l)
  | none =>
    if l.version ≠ request.expectedVersion then
      .error (worldError ("world version conflict: expected " ++
        toString request.expectedVersion ++ ", current " ++ toString l.version))
    else do
      let state ← applyChanges request.changes l.state
      return (l.version + 1,
        { version := l.version + 1
          state
          entries := l.entries ++ [⟨request, l.version + 1⟩] })

def Ledger.append (l : Ledger) (d : Draft) (k : Keywords) : Except PyError Int × Ledger :=
  match d.request k with
  | .error e => (.error e, l)
  | .ok request =>
    match l.appendTx request with
    | .error e => (.error e, l)
    | .ok (version, l') => (.ok version, l')

/-- A whole call with nothing between its read and its append. -/
def runCall (py : Python) (l : Ledger) (e : Call × Keywords) : Except PyError Int × Ledger :=
  match e.1.draft py e.2 l.state with
  | .error err => (.error err, l)
  | .ok d => l.append d e.2

/-- The append recorded its event: the version was the expected one, the id was new,
every key is a path key, and the changes were applied. -/
structure Ledger.Committed (l : Ledger) (d : Draft) (k : Keywords) (l' : Ledger) : Prop where
  expected : k.expectedVersion = l.version
  fresh : ∀ e ∈ l.entries, e.request.eventId ≠ strip k.eventId
  keys : d.changes.all (fun c => c.path.all partOk) = true
  version : l'.version = l.version + 1
  state : applyChanges d.changes l.state = .ok l'.state
  entries : ∃ request, l'.entries = l.entries ++ [⟨request, l.version + 1⟩] ∧
    request.eventId = strip k.eventId ∧ request.changes = d.changes ∧
    request.expectedVersion = k.expectedVersion

theorem Draft.request_ok {d : Draft} {k : Keywords} {request : Request}
    (h : d.request k = .ok request) :
    request.eventId = strip k.eventId ∧ request.expectedVersion = k.expectedVersion ∧
      request.changes = d.changes ∧ d.changes.all (fun c => c.path.all partOk) = true := by
  obtain ⟨eventId, he, h⟩ := bind_ok.mp h
  obtain ⟨_, _, h⟩ := bind_ok.mp h
  obtain ⟨_, _, h⟩ := bind_ok.mp h
  obtain ⟨_, _, h⟩ := bind_ok.mp h
  obtain ⟨_, hkeys, h⟩ := bind_ok.mp h
  obtain ⟨_, _, h⟩ := bind_ok.mp h
  cases h
  exact ⟨identifier_ok he, rfl, rfl, require_ok.mp hkeys⟩

theorem Ledger.appendTx_ok {l l' : Ledger} {request : Request} {v : Int}
    (h : l.appendTx request = .ok (v, l')) :
    l' = l ∨ (request.expectedVersion = l.version ∧
      (∀ e ∈ l.entries, e.request.eventId ≠ request.eventId) ∧
      ∃ state, applyChanges request.changes l.state = .ok state ∧
        l' = { version := l.version + 1
               state
               entries := l.entries ++ [⟨request, l.version + 1⟩] }) := by
  unfold Ledger.appendTx at h
  split at h
  · split at h
    · cases h
    · cases h
      exact .inl rfl
  · next hnone =>
    split at h
    · cases h
    · next hversion =>
      obtain ⟨state, hstate, h⟩ := bind_ok.mp h
      cases h
      refine .inr ⟨(not_not.mp hversion).symm, ?_, state, hstate, rfl⟩
      intro e he
      simpa using List.find?_eq_none.mp hnone e he

/-- An append changes nothing or records its event. -/
theorem append_cases (l : Ledger) (d : Draft) (k : Keywords) :
    (l.append d k).2 = l ∨ l.Committed d k (l.append d k).2 := by
  unfold Ledger.append
  split
  · exact .inl rfl
  · next request hrequest =>
    split
    · exact .inl rfl
    · next v l' htx =>
      obtain ⟨hid, hexp, hchanges, hkeys⟩ := Draft.request_ok hrequest
      rcases Ledger.appendTx_ok htx with h | ⟨hversion, hfresh, state, hstate, h⟩
      · exact .inl h
      · subst h
        rw [hid] at hfresh
        rw [hchanges] at hstate
        exact .inr ⟨hexp ▸ hversion, hfresh, hkeys, rfl, hstate, request, rfl, hid, hchanges, hexp⟩

/-- A call changes nothing or records the event it drafted from the current state. -/
theorem run_cases (py : Python) (l : Ledger) (e : Call × Keywords) :
    (runCall py l e).2 = l ∨ ∃ d, e.1.draft py e.2 l.state = .ok d ∧
      l.Committed d e.2 (runCall py l e).2 := by
  unfold runCall
  split
  · exact .inl rfl
  · next d hd =>
    rcases append_cases l d e.2 with h | h
    · exact .inl h
    · exact .inr ⟨d, hd, h⟩

/-- The step relation of a world under calls that follow one another: each label is a
call that recorded an event. -/
def Commits (py : Python) (l : Ledger) (e : Call × Keywords) (l' : Ledger) : Prop :=
  ∃ d, e.1.draft py e.2 l.state = .ok d ∧ l.Committed d e.2 l'

end Edon.Operations
