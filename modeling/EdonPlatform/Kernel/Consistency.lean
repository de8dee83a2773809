import EdonPlatform.Kernel.Commit
import EdonPlatform.Kernel.Verification
import EdonPlatform.World.Growth

/- Commits through the kernel in every state a run can reach (edon/kernel/commit.py,
   `KernelAuthorizedWorld`): any threads may commit, consume and crash, and the store and its
   outbox may be used without the kernel.

   What is proved:
     1. `authorized_exec` — a whole call is the five steps of a thread that runs alone.
     2. `act_consistent` — a consumed token names the hash of the event its claims are
        about, and a thread that committed holds that hash.
     3. `run_consistent` — so after every run, and the store has only grown.

   Correspondence: the steps are those of `Kernel.Commit`; `authorizedCall` is
   `append_event` and `create_world` of `KernelAuthorizedWorld` run through.

   Assumed: the HMAC is unforgeable, and token ids are as `secrets.token_urlsafe(18)` draws
   them (`Permitted`). -/
namespace Edon.Kernel
open Json World Transition Fallible

/-! ## A call run through -/

section
variable (py : Python) (authority : Authority)

/-- `KernelAuthorizedWorld.append_event` and `create_world`: the clock reads `t` when the
token is verified. -/
def authorizedCall (c : Call) (t : Int) (now consumedAt : String) (s : System) :
    Except PyError Snapshot × System :=
  match verifyWorldEvent py authority c.executionToken (c.verifyRequest (c.existing s.db)) t
      s.tokens with
  | .error e => (.error e, s)
  | .ok _ =>
    match c.commit py now s.db with
    | (.error e, db) => (.error e, { s with db })
    | (.ok snapshot, db) =>
      match Kernel.consume py authority c.executionToken c.eventIdentity
          (snapshot.eventHash.getD "None") consumedAt s.tokens with
      | .error e => (.error e, { s with db })
      | .ok tokens => (.ok snapshot, { s with db, tokens })

/-- The steps of a thread that makes a call. -/
def steps (thread : Nat) (c : Call) (t : Int) (now consumedAt : String) : List Event :=
  [.start thread c, .look thread, .verify thread t, .commit thread now, .consume thread consumedAt]

end

/-- The call as one of the store. -/
def Call.toWorld (now : String) : Call → World.Call
  | .createWorld t w state actor _ token lineage timestamp =>
    .createWorld now t w state actor token lineage timestamp
  | .appendEvent t w e ty ms actor _ expected token lineage timestamp =>
    .appendEvent now t w e ty ms actor expected token lineage timestamp

def Call.appends : Call → Bool
  | .createWorld .. => false
  | .appendEvent .. => true

def Call.eventId : Call → String
  | .createWorld .. => "WORLD_CREATED"
  | .appendEvent _ _ e _ _ _ _ _ _ _ _ => e

theorem Call.commit_eq (py : Python) (c : Call) (now : String) (db : WorldDb) :
    c.commit py now db = (c.toWorld now).run py db := by
  cases c with
  | createWorld => rfl
  | appendEvent => rfl

section
variable {py : Python} {authority : Authority}

theorem System.goto_goto (s : System) (thread : Nat) (a b : Stage) :
    (s.goto thread a).goto thread b = s.goto thread b := by
  unfold System.goto
  congr 1
  funext t
  dsimp only
  split
  · rfl
  · rfl

theorem System.goto_self (s : System) (thread : Nat) : s.goto thread (s.stage thread) = s := by
  unfold System.goto
  have hstage : (fun t => if t = thread then s.stage thread else s.stage t) = s.stage := by
    funext t
    split
    · next h => rw [h]
    · rfl
  rw [hstage]

theorem System.goto_stage (s : System) (thread : Nat) (stage : Stage) :
    (s.goto thread stage).stage thread = stage := if_pos rfl

/-- A thread that starts a call and looks for its event. -/
theorem exec_looked {s : System} {thread : Nat} (hidle : s.stage thread = .idle) (c : Call) :
    exec (step py authority) s [.start thread c, .look thread] =
      s.goto thread (.looked c (c.existing s.db)) := by
  have hstart : step py authority s (.start thread c) = s.goto thread (.started c) := by
    simp only [step, hidle]
  have hlook : step py authority (s.goto thread (.started c)) (.look thread) =
      s.goto thread (.looked c (c.existing s.db)) := by
    simp only [step, System.goto_stage, System.goto_goto]
    rfl
  rw [exec_cons, hstart, exec_cons, hlook, exec_nil]

section
variable {s : System} {thread : Nat} {c : Call} {t : Int} {now consumedAt : String}
  {payload : Fields} {snapshot : Snapshot} {db : WorldDb} {tokens : TokenDb} {e : PyError}

theorem step_verify_ok (h : verifyWorldEvent py authority c.executionToken
      (c.verifyRequest (c.existing s.db)) t s.tokens = .ok payload) :
    step py authority (s.goto thread (.looked c (c.existing s.db))) (.verify thread t) =
      s.goto thread (.verified c) := by
  have htokens : (s.goto thread (.looked c (c.existing s.db))).tokens = s.tokens := rfl
  simp only [step, System.goto_stage, System.goto_goto, htokens, h]

theorem step_verify_error (h : verifyWorldEvent py authority c.executionToken
      (c.verifyRequest (c.existing s.db)) t s.tokens = .error e) :
    step py authority (s.goto thread (.looked c (c.existing s.db))) (.verify thread t) =
      s.goto thread .idle := by
  have htokens : (s.goto thread (.looked c (c.existing s.db))).tokens = s.tokens := rfl
  simp only [step, System.goto_stage, System.goto_goto, htokens, h]

theorem step_commit_ok (h : c.commit py now s.db = (.ok snapshot, db)) :
    step py authority (s.goto thread (.verified c)) (.commit thread now) =
      { s with db }.goto thread (.committed c snapshot) := by
  have hdb : (s.goto thread (.verified c)).db = s.db := rfl
  simp only [step, System.goto_stage, System.goto_goto, hdb, h]
  rfl

theorem step_commit_error (h : c.commit py now s.db = (.error e, db)) :
    step py authority (s.goto thread (.verified c)) (.commit thread now) =
      { s with db }.goto thread .idle := by
  have hdb : (s.goto thread (.verified c)).db = s.db := rfl
  simp only [step, System.goto_stage, System.goto_goto, hdb, h]
  rfl

theorem step_consume_ok (h : Kernel.consume py authority c.executionToken c.eventIdentity
      (snapshot.eventHash.getD "None") consumedAt s.tokens = .ok tokens) :
    step py authority (s.goto thread (.committed c snapshot)) (.consume thread consumedAt) =
      { s with tokens }.goto thread .idle := by
  have htokens : (s.goto thread (.committed c snapshot)).tokens = s.tokens := rfl
  simp only [step, System.goto_stage, System.goto_goto, htokens, h]
  rfl

theorem step_consume_error (h : Kernel.consume py authority c.executionToken c.eventIdentity
      (snapshot.eventHash.getD "None") consumedAt s.tokens = .error e) :
    step py authority (s.goto thread (.committed c snapshot)) (.consume thread consumedAt) =
      s.goto thread .idle := by
  have htokens : (s.goto thread (.committed c snapshot)).tokens = s.tokens := rfl
  simp only [step, System.goto_stage, System.goto_goto, htokens, h]

end

/-- The steps of a thread that is not in a call do nothing. -/
theorem step_idle {s : System} {thread : Nat} (hidle : s.stage thread = .idle)
    (now consumedAt : String) :
    step py authority s (.commit thread now) = s ∧
      step py authority s (.consume thread consumedAt) = s := by
  simp only [step, hidle, and_self]

/-- A whole call is the five steps of a thread that runs alone. -/
theorem authorized_exec {s : System} {thread : Nat} (hidle : s.stage thread = .idle) (c : Call)
    (t : Int) (now consumedAt : String) :
    exec (step py authority) s (steps thread c t now consumedAt) =
      (authorizedCall py authority c t now consumedAt s).2 := by
  have hself : ∀ s' : System, s'.stage = s.stage → s'.goto thread .idle = s' := by
    intro s' hstage
    have hgoto := s'.goto_self thread
    rwa [hstage, hidle] at hgoto
  have hsteps : steps thread c t now consumedAt = [.start thread c, .look thread] ++
    [.verify thread t, .commit thread now, .consume thread consumedAt] := rfl
  rw [hsteps, exec_append, exec_looked hidle, exec_cons]
  unfold authorizedCall
  cases hverify : verifyWorldEvent py authority c.executionToken (c.verifyRequest (c.existing s.db))
      t s.tokens with
  | error e =>
    rw [step_verify_error hverify, hself s rfl, exec_cons, (step_idle hidle now consumedAt).1,
      exec_cons, (step_idle hidle now consumedAt).2, exec_nil]
  | ok payload =>
    rw [step_verify_ok hverify, exec_cons]
    dsimp only
    cases hcommit : c.commit py now s.db with
    | mk result db =>
      cases result with
      | error e =>
        have hstep : step py authority { s with db } (.consume thread consumedAt) =
          { s with db } := (step_idle (s := { s with db }) hidle now consumedAt).2
        rw [step_commit_error hcommit, exec_cons, exec_nil, hself { s with db } rfl]
        exact hstep
      | ok snapshot =>
        rw [step_commit_ok hcommit, exec_cons, exec_nil]
        dsimp only
        cases hconsume : Kernel.consume py authority c.executionToken c.eventIdentity
            (snapshot.eventHash.getD "None") consumedAt s.tokens with
        | error e =>
          have hstep : step py authority ({ s with db }.goto thread (.committed c snapshot))
            (.consume thread consumedAt) = { s with db }.goto thread .idle :=
              step_consume_error hconsume
          exact hstep.trans (hself { s with db } rfl)
        | ok tokens =>
          have hstep : step py authority ({ s with db }.goto thread (.committed c snapshot))
            (.consume thread consumedAt) = { s with db, tokens }.goto thread .idle :=
              step_consume_ok hconsume
          exact hstep.trans (hself { s with db, tokens } rfl)

/-! ## What the states of a run have in common -/

/-- A step of the commits, or a use of the store or of its outbox without the kernel. -/
inductive Action where
  | kernel (e : Event)
  | store (op : Outbox.Op)

end

section
variable (py : Python) (authority : Authority)

def act (s : System) : Action → System
  | .kernel e => step py authority s e
  | .store op => { s with db := op.run py s.db }

/-- Token ids are drawn, and nobody starts with a forged token. -/
def Permitted (s : System) : Action → Prop
  | .kernel (.issue _ tokenId _ _) => UrlSafe tokenId
  | .kernel e => Unforgeable py authority s e
  | .store _ => True

/-- The actions as a relation. -/
def Act : System → Action → System → Prop :=
  guard (Permitted py authority) (fun s a t => t = act py authority s a)

/-- What the verification of a call has established about its token. -/
structure Verified (s : System) (c : Call) (claims : Claims) : Prop where
  issued : claims ∈ s.issued
  token : claims.token py authority = c.executionToken
  authorizes : Authorizes py claims (c.verifyRequest none)
  version : ∀ v, (c.verifyRequest none).authorityVersion = some v → v = claims.authorityVersion

end

/-- The event of the claims is in the store, with this hash. -/
def EventAt (db : WorldDb) (claims : Claims) (hash : String) : Prop :=
  ∃ row, db.worldEvents.get (claims.tenantId, claims.worldId, claims.eventId) = some row ∧
    row.eventHash = hash

section
variable (py : Python) (authority : Authority)

/-- What a thread at a stage of its call knows. -/
def StageHeld (s : System) : Stage → Prop
  | .idle => True
  | .started c => signatureValid authority c.executionToken = true →
      WasIssued py authority s c.executionToken
  | .looked c _ => signatureValid authority c.executionToken = true →
      WasIssued py authority s c.executionToken
  | .verified c => ∃ claims, Verified py authority s c claims
  | .committed c snapshot => ∃ claims hash, Verified py authority s c claims ∧
      snapshot.eventHash = some hash ∧ EventAt s.db claims hash

/-- The row of a consumed token: it is of an issued token, and has the hash of the event of
its claims. -/
def ConsumedFor (s : System) (row : ConsumedRow) : Prop :=
  ∃ claims ∈ s.issued, row.tokenId = claims.tokenId ∧
    row.tokenSha256 = "sha256:" ++ py.sha256 (claims.token py authority) ∧
    EventAt s.db claims row.eventHash

structure Consistent (s : System) : Prop where
  store : World.Sound py s.db
  paired : Paired s.db
  drawn : ∀ c ∈ s.issued, UrlSafe c.tokenId ∧ s.tokens.issuedKernelTokens.get c.tokenId ≠ none
  distinct : ∀ c ∈ s.issued, ∀ c' ∈ s.issued, c.tokenId = c'.tokenId → c = c'
  stages : ∀ thread, StageHeld py authority s (s.stage thread)
  consumed : ∀ row ∈ s.tokens.consumedKernelTokens.rows, ConsumedFor py authority s row

end

section
variable {py : Python} {authority : Authority}

theorem consistent_empty : Consistent py authority System.empty where
  store := World.sound_empty
  paired := paired_empty
  drawn := by
    intro c hc
    cases hc
  distinct := by
    intro c hc
    cases hc
  stages := fun _ => trivial
  consumed := by
    intro row hrow
    cases hrow

/-! ### What stays as the system grows -/

theorem EventAt.mono {db db' : WorldDb} {claims : Claims} {hash : String}
    (h : EventAt db claims hash) (hgrows : Grows db db') : EventAt db' claims hash := by
  obtain ⟨row, hrow, hhash⟩ := h
  exact ⟨row, hgrows.events _ _ hrow, hhash⟩

/-- More tokens are issued, and the store grows. -/
structure Extends (s s' : System) : Prop where
  issued : ∀ c ∈ s.issued, c ∈ s'.issued
  store : Grows s.db s'.db

section
variable {s s' : System}

theorem Verified.mono {c : Call} {claims : Claims} (h : Verified py authority s c claims)
    (hmore : Extends s s') : Verified py authority s' c claims :=
  { h with issued := hmore.issued _ h.issued }

theorem StageHeld.mono {stage : Stage} (h : StageHeld py authority s stage)
    (hmore : Extends s s') : StageHeld py authority s' stage := by
  have hwas : ∀ token, WasIssued py authority s token → WasIssued py authority s' token := by
    rintro token ⟨c, hc, htoken⟩
    exact ⟨c, hmore.issued c hc, htoken⟩
  cases stage with
  | idle => trivial
  | started c => exact fun hv => hwas _ (h hv)
  | looked c existing => exact fun hv => hwas _ (h hv)
  | verified c =>
    obtain ⟨claims, hclaims⟩ := h
    exact ⟨claims, hclaims.mono hmore⟩
  | committed c snapshot =>
    obtain ⟨claims, hash, hclaims, hsnapshot, hevent⟩ := h
    exact ⟨claims, hash, hclaims.mono hmore, hsnapshot, hevent.mono hmore.store⟩

theorem ConsumedFor.mono {row : ConsumedRow} (h : ConsumedFor py authority s row)
    (hmore : Extends s s') : ConsumedFor py authority s' row := by
  obtain ⟨claims, hclaims, hid, hsha, hevent⟩ := h
  exact ⟨claims, hmore.issued _ hclaims, hid, hsha, hevent.mono hmore.store⟩

end

/-- A thread that moves to a stage it has established keeps the system consistent. -/
theorem Consistent.goto {s : System} (hs : Consistent py authority s) (thread : Nat)
    {stage : Stage} (hstage : StageHeld py authority s stage) :
    Consistent py authority (s.goto thread stage) :=
  { hs with
    stages := by
      intro t
      have hmore : Extends s (s.goto thread stage) := ⟨fun _ h => h, .refl s.db⟩
      have hmoved : StageHeld py authority (s.goto thread stage)
          (if t = thread then stage else s.stage t) := by
        split
        · exact hstage.mono hmore
        · exact (hs.stages t).mono hmore
      exact hmoved }

/-- The store may grow. -/
theorem Consistent.grow {s : System} (hs : Consistent py authority s) {db : WorldDb}
    (hstore : World.Sound py db) (hpaired : Paired db) (hgrows : Grows s.db db) :
    Consistent py authority { s with db } := by
  have hmore : Extends s { s with db } := ⟨fun _ h => h, hgrows⟩
  exact
    { store := hstore
      paired := hpaired
      drawn := hs.drawn
      distinct := hs.distinct
      stages := fun t => (hs.stages t).mono hmore
      consumed := fun row hrow => (hs.consumed row hrow).mono hmore }

/-! ### Every action keeps it -/

theorem Consistent.issue {s : System} (hs : Consistent py authority s) {request : IssueRequest}
    {tokenId nonce : String} {now : Int} {claims : Claims} {tokens : TokenDb}
    (hid : UrlSafe tokenId) (h : issueWorldEvent py authority request tokenId nonce now s.tokens =
      .ok (claims, tokens)) :
    Consistent py authority { s with tokens, issued := s.issued ++ [claims] } := by
  obtain ⟨hclaims, row, t, hrow, ht, rfl⟩ := issue_ok h
  obtain ⟨-, hown, -, -⟩ := claims_ok hclaims
  have hnew : s.tokens.issuedKernelTokens.get claims.tokenId = none := by
    rw [hown, ← hrow]
    exact (Table.rows_insert ht).2
  have hmore : Extends s { s with
      tokens := { s.tokens with issuedKernelTokens := t }, issued := s.issued ++ [claims] } :=
    ⟨fun _ hc => List.mem_append_left _ hc, .refl s.db⟩
  have hget : ∀ k, t.get k = if row.tokenId = k then some row else s.tokens.issuedKernelTokens.get k :=
    Table.get_insert ht
  -- an older token has an id in the table, so not the new one
  have hold : ∀ c ∈ s.issued, c.tokenId ≠ claims.tokenId := by
    intro c hc hsame
    exact (hs.drawn c hc).2 (hsame ▸ hnew)
  exact
    { store := hs.store
      paired := hs.paired
      drawn := by
        intro c hc
        rcases List.mem_append.mp hc with hc | hc
        · refine ⟨(hs.drawn c hc).1, ?_⟩
          show t.get c.tokenId ≠ none
          rw [hget]
          split
          · exact Option.some_ne_none _
          · exact (hs.drawn c hc).2
        · rw [List.mem_singleton.mp hc]
          refine ⟨hown ▸ hid, ?_⟩
          show t.get claims.tokenId ≠ none
          rw [hget, if_pos (hrow.trans hown.symm)]
          exact Option.some_ne_none _
      distinct := by
        intro c hc c' hc' hsame
        rcases List.mem_append.mp hc with hc | hc
        · rcases List.mem_append.mp hc' with hc' | hc'
          · exact hs.distinct c hc c' hc' hsame
          · rw [List.mem_singleton.mp hc'] at hsame
            exact absurd hsame (hold c hc)
        · rw [List.mem_singleton.mp hc] at hsame ⊢
          rcases List.mem_append.mp hc' with hc' | hc'
          · exact absurd hsame.symm (hold c' hc')
          · exact (List.mem_singleton.mp hc').symm
      stages := fun t => (hs.stages t).mono hmore
      consumed := fun row hrow => (hs.consumed row hrow).mono hmore }

/-- The ids of the claims are the normal forms of the call's. -/
theorem Verified.key {s : System} {c : Call} {claims : Claims}
    (h : Verified py authority s c claims) : claims.tenantId = strip (c.verifyRequest none).tenantId ∧
      claims.worldId = strip (c.verifyRequest none).worldId ∧
      claims.eventId = strip (c.verifyRequest none).eventId :=
  ⟨identifier_ok h.authorizes.tenant, identifier_ok h.authorizes.world,
    identifier_ok h.authorizes.event⟩

/-- A commit that was answered names the hash of the event of its claims. -/
theorem Verified.commit {s : System} {c : Call} {claims : Claims}
    (h : Verified py authority s c claims) {now : String} {snapshot : Snapshot} {db : WorldDb}
    (hcommit : c.commit py now s.db = (.ok snapshot, db)) (hpaired : Paired db) :
    ∃ hash, snapshot.eventHash = some hash ∧ EventAt db claims hash := by
  obtain ⟨ht, hw, he⟩ := h.key
  have hanswer := congrArg Prod.fst hcommit
  have hafter := congrArg Prod.snd hcommit
  unfold EventAt
  cases c with
  | createWorld t w state actor version token lineage timestamp =>
    obtain ⟨request, fields, created, hrequest, hevent, hhash⟩ := create_answer hanswer
    obtain ⟨hchecked, -⟩ := createRequest_ok py hrequest
    have hdb : (World.createWorld py now t w state actor token lineage timestamp s.db).2 = db :=
      hafter
    have hid : strip "WORLD_CREATED" = "WORLD_CREATED" := by decide
    rw [hdb, identifier_ok hchecked.tenant, identifier_ok hchecked.world] at hevent
    refine ⟨created.eventHash, hhash, created, ?_, rfl⟩
    rw [ht, hw, he]
    show db.worldEvents.get (strip t, strip w, strip "WORLD_CREATED") = some created
    rw [hid]
    exact hevent
  | appendEvent t w e ty ms actor version expected token lineage timestamp =>
    obtain ⟨request, row, hrequest, hstored, rfl⟩ := append_answer hanswer
    have hchecked := appendRequest_ok hrequest
    have hdb : (World.appendEvent py now t w e ty ms actor expected token lineage timestamp
      s.db).2 = db := hafter
    rw [hdb] at hstored
    obtain ⟨event, hevent, hhash⟩ := hstored.hash hpaired
    refine ⟨event.eventHash, congrArg some hhash, event, ?_, rfl⟩
    rw [ht, hw, he]
    rw [identifier_ok hchecked.tenant, identifier_ok hchecked.world,
      identifier_ok hchecked.event] at hevent
    exact hevent

theorem Consistent.commit {s : System} (hs : Consistent py authority s) {thread : Nat} {c : Call}
    (hstage : s.stage thread = .verified c) (now : String) :
    Consistent py authority (step py authority s (.commit thread now)) := by
  obtain ⟨claims, hclaims⟩ : ∃ claims, Verified py authority s c claims := by
    have hheld := hs.stages thread
    rwa [hstage] at hheld
  have hself : s.goto thread (.verified c) = s := hstage ▸ s.goto_self thread
  cases hcommit : c.commit py now s.db with
  | mk result db =>
    have hdb : ((c.toWorld now).run py s.db).2 = db := by
      rw [← c.commit_eq, hcommit]
    have hgrown := hs.grow (hdb ▸ ((c.toWorld now).sound hs.store).sound)
      (hdb ▸ hs.paired.call hs.store (c.toWorld now)) (hdb ▸ hs.store.grows (c.toWorld now))
    cases result with
    | error e =>
      have hstep := @step_commit_error py authority s thread c now db e hcommit
      rw [hself] at hstep
      rw [hstep]
      exact hgrown.goto thread trivial
    | ok snapshot =>
      have hstep := @step_commit_ok py authority s thread c now snapshot db hcommit
      rw [hself] at hstep
      rw [hstep]
      obtain ⟨hash, hhash, hevent⟩ := hclaims.commit hcommit hgrown.paired
      exact hgrown.goto thread ⟨claims, hash, { hclaims with }, hhash, hevent⟩

theorem Consistent.consume {s : System} (hs : Consistent py authority s) {thread : Nat} {c : Call}
    {snapshot : Snapshot} (hstage : s.stage thread = .committed c snapshot) (consumedAt : String) :
    Consistent py authority (step py authority s (.consume thread consumedAt)) := by
  obtain ⟨claims, hash, hclaims, hsnapshot, hevent⟩ : ∃ claims hash,
      Verified py authority s c claims ∧ snapshot.eventHash = some hash ∧
        EventAt s.db claims hash := by
    have hheld := hs.stages thread
    rwa [hstage] at hheld
  have hself : s.goto thread (.committed c snapshot) = s := hstage ▸ s.goto_self thread
  cases hconsume : Kernel.consume py authority c.executionToken c.eventIdentity
      (snapshot.eventHash.getD "None") consumedAt s.tokens with
  | error e =>
    have hstep := @step_consume_error py authority s thread c consumedAt snapshot e hconsume
    rw [hself] at hstep
    rw [hstep]
    exact hs.goto thread trivial
  | ok tokens =>
    have hstep := @step_consume_ok py authority s thread c consumedAt snapshot tokens hconsume
    rw [hself] at hstep
    rw [hstep]
    rw [← hclaims.token, hsnapshot, Option.getD_some] at hconsume
    rcases consume_ok (hs.drawn claims hclaims.issued).1 hconsume with ⟨rfl, _⟩ | ⟨t, ht, rfl⟩
    · exact hs.goto thread trivial
    · -- the new row is of the claims that were verified
      have hrows := (Table.rows_insert ht).1
      have hmore : Extends s { s with tokens := { s.tokens with consumedKernelTokens := t } } :=
        ⟨fun _ hc => hc, .refl s.db⟩
      have hconsistent : Consistent py authority
          { s with tokens := { s.tokens with consumedKernelTokens := t } } :=
        { store := hs.store
          paired := hs.paired
          drawn := hs.drawn
          distinct := hs.distinct
          stages := fun thread => (hs.stages thread).mono hmore
          consumed := by
            intro row hrow
            have hmem : row ∈ t.rows := hrow
            rw [hrows] at hmem
            rcases List.mem_append.mp hmem with hold | hnew
            · exact (hs.consumed row hold).mono hmore
            · rw [List.mem_singleton.mp hnew]
              exact ⟨claims, hclaims.issued, rfl, rfl, hevent⟩ }
      exact hconsistent.goto thread trivial

/-- **One action.** Every action keeps the system consistent. -/
theorem act_consistent {s t : System} {a : Action} (hs : Consistent py authority s)
    (h : Act py authority s a t) : Consistent py authority t := by
  obtain ⟨hpermitted, rfl⟩ := h
  cases a with
  | store op =>
    obtain ⟨hstore, hgrows⟩ := hs.store.operate op
    exact hs.grow hstore (hs.paired.operate hs.store op) hgrows
  | kernel e =>
    cases e with
    | issue request tokenId nonce now =>
      simp only [act, step]
      split
      · next claims tokens hissue => exact hs.issue hpermitted hissue
      · exact hs
    | start thread c =>
      simp only [act, step]
      split
      · exact hs.goto thread hpermitted
      · exact hs
    | look thread =>
      simp only [act, step]
      split
      · next c hstage =>
        have hheld := hs.stages thread
        rw [hstage] at hheld
        exact hs.goto thread hheld
      · exact hs
    | verify thread now =>
      simp only [act, step]
      split
      · next c existing hstage =>
        have hheld := hs.stages thread
        rw [hstage] at hheld
        split
        · next payload hverify =>
          -- the signature verified, so the token was issued, with claims that match
          obtain ⟨claims, hclaims, htoken⟩ :=
            hheld (signatureValid_of_decode (verify_ok hverify).1)
          rw [← htoken] at hverify
          obtain ⟨hauth, hversion, -, -⟩ := verify_iff.mp ⟨payload, hverify⟩
          refine hs.goto thread ⟨claims, hclaims, htoken, ?_, ?_⟩
          · cases c <;> exact { hauth with }
          · cases c <;> exact hversion
        · exact hs.goto thread trivial
      · exact hs
    | commit thread now =>
      cases hstage : s.stage thread with
      | verified c => exact hs.commit hstage now
      | _ =>
        simp only [act, step, hstage]
        exact hs
    | consume thread consumedAt =>
      cases hstage : s.stage thread with
      | committed c snapshot => exact hs.consume hstage consumedAt
      | _ =>
        simp only [act, step, hstage]
        exact hs
    | crash thread => exact hs.goto thread trivial

/-- The store only grows, and tokens stay issued. -/
theorem act_extends {s t : System} {a : Action} (hs : Consistent py authority s)
    (h : Act py authority s a t) : Extends s t := by
  obtain ⟨-, rfl⟩ := h
  cases a with
  | store op => exact ⟨fun _ hc => hc, (hs.store.operate op).2⟩
  | kernel e =>
    cases e with
    | issue request tokenId nonce now =>
      simp only [act, step]
      split
      · exact ⟨fun _ hc => List.mem_append_left _ hc, .refl s.db⟩
      · exact ⟨fun _ hc => hc, .refl s.db⟩
    | start thread c =>
      simp only [act, step]
      split <;> exact ⟨fun _ hc => hc, .refl s.db⟩
    | look thread =>
      simp only [act, step]
      split <;> exact ⟨fun _ hc => hc, .refl s.db⟩
    | verify thread now =>
      simp only [act, step]
      split
      · split <;> exact ⟨fun _ hc => hc, .refl s.db⟩
      · exact ⟨fun _ hc => hc, .refl s.db⟩
    | commit thread now =>
      simp only [act, step]
      split
      · next c hstage =>
        have hgrows := hs.store.grows (c.toWorld now)
        rw [← c.commit_eq] at hgrows
        split
        · next snapshot db hcommit =>
          rw [hcommit] at hgrows
          exact ⟨fun _ hc => hc, hgrows⟩
        · next e db hcommit =>
          rw [hcommit] at hgrows
          exact ⟨fun _ hc => hc, hgrows⟩
      · exact ⟨fun _ hc => hc, .refl s.db⟩
    | consume thread consumedAt =>
      simp only [act, step]
      split
      · split <;> exact ⟨fun _ hc => hc, .refl s.db⟩
      · exact ⟨fun _ hc => hc, .refl s.db⟩
    | crash thread => exact ⟨fun _ hc => hc, .refl s.db⟩

theorem Extends.trans {a b c : System} (h₁ : Extends a b) (h₂ : Extends b c) : Extends a c :=
  ⟨fun x hx => h₂.issued x (h₁.issued x hx), h₁.store.trans h₂.store⟩

/-- **Every run.** A run from a consistent system ends in one, which extends it. -/
theorem run_consistent {s t : System} {actions : List Action} (hs : Consistent py authority s)
    (hrun : Run (Act py authority) s actions t) : Consistent py authority t ∧ Extends s t :=
  ⟨hrun.invariant (fun _ _ _ h hstep => act_consistent h hstep) hs,
    hrun.preserves (R := Extends) (fun s => ⟨fun _ hc => hc, .refl s.db⟩)
      (fun _ _ _ => Extends.trans)
      (fun _ _ _ h hstep => act_consistent h hstep) (fun _ _ _ h hstep => act_extends h hstep) hs⟩

end

end Edon.Kernel
