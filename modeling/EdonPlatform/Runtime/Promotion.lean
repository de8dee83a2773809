import EdonPlatform.Compiler.Pipeline
import EdonPlatform.Registry.Invariant
import EdonPlatform.Runtime.Engine

/- From the compiler through the registry to the runtime. The compiler states the facts of a
   candidate, the registry promotes it once its reviews approve it, and the runtime checks the
   promoted document before it executes it.

   What is proved:
     1. `compiled_exec` — where the reports that are registered come from the compiler, every
        candidate of the registry is one of the compiler's, after every sequence of calls.
     2. `readable_checks` — every check of the runtime passes on a promoted document but the
        consistency of its facts.
     3. `promoted_checks` — a promoted document passes the checks exactly when every fact of its
        candidate has a value and one path has one value. -/
namespace Edon.Runtime
open Json Compiler Registry Interleaving Transition

/-! ## The candidates of the registry -/

/-- A candidate of the compiler. -/
def CandidateOf (rd : Reader) (c : CompilerCandidate) : Prop :=
  ∃ input output, compileInstitution rd input = .ok output ∧ c ∈ output.candidates

/-- The report of a compilation. -/
def ReportOf (rd : Reader) (report : Json) : Prop :=
  ∃ input output, compileInstitution rd input = .ok output ∧
    dictGet report "candidates" .null = .ok (.arr (output.candidates.map CompilerCandidate.row))

/-- Every candidate is one of the compiler's. -/
def Compiled (rd : Reader) (db : RegistryDb) : Prop :=
  ∀ row ∈ db.candidates.rows, ∃ c, CandidateOf rd c ∧ row.payload = c.row.canon

section
variable {rd : Reader} {py : Python} {db t : RegistryDb}

theorem compiled_insert (h : Compiled rd db) {row : CandidateRow} {c : CompilerCandidate}
    (hc : CandidateOf rd c) (hpayload : row.payload = c.row.canon)
    (hinsert : db.candidates.insert row = some t.candidates) : Compiled rd t := by
  intro r hr
  rcases (Table.mem_insert hinsert).mp hr with hold | rfl
  · exact h r hold
  · exact ⟨c, hc, hpayload⟩

theorem compiled_status (h : Compiled rd db) {candidateId : String} {status : CandidateStatus}
    (ht : t.candidates = db.candidates.modify candidateId (CandidateRow.withStatus status)
      (fun _ => rfl)) : Compiled rd t := by
  intro r hr
  rw [ht] at hr
  rcases Table.mem_modify.mp hr with ⟨hold, _⟩ | ⟨old, hold, _, rfl⟩
  · exact h r hold
  · exact h old hold

theorem compiled_same (h : Compiled rd db) (ht : t.candidates = db.candidates) : Compiled rd t := by
  intro r hr
  exact h r (ht ▸ hr)

/-- The row of a candidate has its document, in canonical form. -/
theorem registerCandidate_row {run : CompilerRunRow} {candidate : Json} {id : String}
    (h : registerCandidate py run candidate db = .ok (id, t)) :
    ∃ row, db.candidates.insert row = some t.candidates ∧ row.payload = candidate.canon := by
  unfold registerCandidate at h
  obtain ⟨_, _, h⟩ := bind_ok.mp h
  obtain ⟨_, _, h⟩ := bind_ok.mp h
  obtain ⟨_, _, h⟩ := bind_ok.mp h
  obtain ⟨_, _, h⟩ := bind_ok.mp h
  obtain ⟨_, _, h⟩ := bind_ok.mp h
  obtain ⟨_, _, h⟩ := bind_ok.mp h
  obtain ⟨_, _, h⟩ := bind_ok.mp h
  obtain ⟨_, _, h⟩ := bind_ok.mp h
  obtain ⟨_, _, h⟩ := bind_ok.mp h
  obtain ⟨candidates, hinsert, h⟩ := bind_ok.mp h
  obtain ⟨_, haudit, h⟩ := bind_ok.mp h
  cases h
  obtain ⟨_, rfl, _⟩ := appendAudit_ok haudit
  exact ⟨_, orRaise_ok.mp hinsert, rfl⟩

theorem compiled_registerCandidates {run : CompilerRunRow} {candidates : List CompilerCandidate}
    {ids : List String} (h : Compiled rd db) (hcandidates : ∀ c ∈ candidates, CandidateOf rd c)
    (hok : registerCandidates py run (candidates.map CompilerCandidate.row) db = .ok (ids, t)) :
    Compiled rd t := by
  induction candidates generalizing db ids with
  | nil =>
    cases hok
    exact h
  | cons c candidates ih =>
    obtain ⟨⟨id, db₁⟩, hfirst, hok⟩ := bind_ok.mp hok
    obtain ⟨⟨_, db₂⟩, hrest, hok⟩ := bind_ok.mp hok
    cases hok
    refine ih ?_ (fun c hc => hcandidates c (List.mem_cons_of_mem _ hc)) hrest
    obtain ⟨row, hinsert, hpayload⟩ := registerCandidate_row hfirst
    exact compiled_insert h (hcandidates c List.mem_cons_self) hpayload hinsert

theorem compiled_register {run : CompilerRunRow} {candidates : List CompilerCandidate}
    {ids : List String} (h : Compiled rd db) (hcandidates : ∀ c ∈ candidates, CandidateOf rd c)
    (hok : registerTx py run (candidates.map CompilerCandidate.row) db = .ok (ids, t)) :
    Compiled rd t := by
  obtain ⟨compilerRuns, _, hok⟩ := bind_ok.mp hok
  obtain ⟨db₁, haudit, hok⟩ := bind_ok.mp hok
  obtain ⟨event, rfl, _⟩ := appendAudit_ok haudit
  refine compiled_registerCandidates ?_ hcandidates hok
  exact compiled_same h rfl

/-! ## Calls -/

/-- A report that is registered comes from the compiler. -/
def FromCompiler (rd : Reader) (k : Call) : Prop :=
  ∀ now report timestamp, k = .registerCompilerRun now report timestamp → ReportOf rd report

theorem compiled_registerCompilerRun (h : Compiled rd db) {now : Int} {report : Json}
    {timestamp : Option String} (hreport : ReportOf rd report) :
    Alone py db (registerCompilerRun py now report timestamp) (fun _ t => Compiled rd t) := by
  obtain ⟨input, output, hcompiled, hrows⟩ := hreport
  unfold registerCompilerRun
  apply alone_lift
  intro _ _
  apply alone_lift
  intro _ _
  apply alone_lift
  intro _ _
  apply alone_lift
  intro _ _
  apply alone_lift
  intro _ _
  apply alone_lift
  intro _ _
  apply alone_lift
  intro _ _
  apply alone_lift
  intro value hvalue
  cases hrows.symm.trans hvalue
  apply alone_lift
  intro rows hlist
  have hlist : rows = output.candidates.map CompilerCandidate.row := by
    cases hcandidates : output.candidates with
    | nil =>
      rw [hcandidates] at hlist
      cases hlist
    | cons c rest =>
      rw [hcandidates] at hlist
      cases hlist
      rfl
  subst hlist
  repeat refine alone_lift fun _ _ => ?_
  apply alone_sql
  dsimp only [execute]
  split
  · apply alone_lift
    intro _ _
    apply alone_sql
    exact Prog.meets_pure.mpr h
  · apply alone_sql
    refine Prog.Meets.transaction rfl ?_
    intro ids t hok
    exact Prog.meets_pure.mpr
      (compiled_register h (fun c hc => ⟨input, output, hcompiled, hc⟩) hok)

theorem compiled_submitReview (h : Compiled rd db) (now : Int) (a : ReviewArgs) :
    Alone py db (submitReview py now a) (fun _ t => Compiled rd t) := by
  unfold submitReview
  apply alone_lift
  intro decision _
  apply alone_lift
  intro _ _
  apply alone_candidateRow
  intro candidate _
  repeat refine alone_lift fun _ _ => ?_
  apply alone_sql
  refine Prog.Meets.transaction rfl ?_
  intro status t hok
  exact Prog.meets_pure.mpr (compiled_status h (reviewTx_ok hok).2.2.2.2.1)

/-- What a promotion makes its document of. -/
structure PromotedFrom (db : RegistryDb) (candidateId promoterId : String)
    (candidate : CandidateRow) (d : Json) : Prop where
  row : db.candidates.get candidateId = some candidate
  ready : candidateStatus (db.reviewsOf candidateId) candidate = .ok .readyToPromote
  document : ∃ source mechanism metadata facts,
    dictIndex candidate.payload "mechanism" = .ok source ∧ dictOf source = .ok mechanism ∧
    dictOf ((Assoc.find mechanism "metadata").getD (.obj [])) = .ok metadata ∧
    dictGet candidate.payload "facts" (.arr []) = .ok facts ∧
    d = .obj (promotedMechanism candidate (approvalsOf (db.reviewsOf candidateId)) promoterId
      mechanism metadata facts)

theorem alone_promotion (h : Compiled rd db) (now : Int) (candidateId promoterId : String)
    (timestamp : Option String) :
    Alone py db (promote py now candidateId promoterId timestamp)
      (fun d t => Compiled rd t ∧ ∃ candidate, PromotedFrom db candidateId promoterId candidate d) := by
  unfold promote
  apply alone_lift
  intro _ _
  apply alone_candidateRow
  intro candidate hcandidate
  apply alone_sql
  dsimp only [execute]
  apply alone_lift
  intro status hstatus
  apply alone_lift
  intro _ hready
  rw [of_decide_eq_true (require_ok.mp hready)] at hstatus
  apply alone_lift
  intro source hsource
  apply alone_lift
  intro mechanism hmechanism
  apply alone_sql
  dsimp only [execute]
  apply alone_lift
  intro metadata hmetadata
  apply alone_lift
  intro facts hfacts
  apply alone_lift
  intro _ _
  apply alone_lift
  intro _ _
  apply alone_sql
  refine Prog.Meets.transaction rfl ?_
  intro u t hok
  exact Prog.meets_pure.mpr ⟨compiled_status h (promoteTx_ok hok).2.2.1, candidate, hcandidate,
    hstatus, source, mechanism, metadata, facts, hsource, hmechanism, hmetadata, hfacts, rfl⟩

theorem compiled_rollback (h : Compiled rd db) (now : Int)
    (mechanismId targetVersion actorId rationale : String) (timestamp : Option String) :
    Alone py db (rollback py now mechanismId targetVersion actorId rationale timestamp)
      (fun _ t => Compiled rd t) := by
  unfold rollback
  apply alone_sql
  apply alone_lift
  intro target _
  apply alone_sql
  refine Prog.Meets.transaction rfl ?_
  intro u t hok
  exact Prog.meets_pure.mpr (compiled_same h (rollbackTx_ok hok).2.2.1)

theorem compiled_next (h : Compiled rd db) (k : Call) (hk : FromCompiler rd k) :
    Compiled rd (next py db k) := by
  have halone : Alone py db (k.program py) (fun _ t => Compiled rd t) := by
    cases k with
    | registerCompilerRun now report timestamp =>
      exact compiled_registerCompilerRun h (hk now report timestamp rfl)
    | submitReview now a => exact compiled_submitReview h now a
    | promote now candidateId promoterId timestamp =>
      exact (alone_promotion h now candidateId promoterId timestamp).mono fun _ _ hd => hd.1
    | rollback now mechanismId targetVersion actorId rationale timestamp =>
      exact compiled_rollback h now mechanismId targetVersion actorId rationale timestamp
  unfold next Call.run
  rcases halone.run Eq.refl with ⟨d, t, hrun, hcompiled⟩ | ⟨e, t, hrun, rfl⟩
  · rw [hrun]
    exact hcompiled
  · rw [hrun]
    exact h

/-- **Every candidate of the registry is one of the compiler's, after every sequence of calls.** -/
theorem compiled_exec {calls : List Call} (hcalls : ∀ k ∈ calls, FromCompiler rd k)
    (h : Compiled rd db) : Compiled rd (exec (next py) db calls) := by
  induction calls generalizing db with
  | nil => exact h
  | cons k calls ih =>
    exact ih (fun k hk => hcalls k (List.mem_cons_of_mem _ hk))
      (compiled_next h k (hcalls k List.mem_cons_self))

end
/-! ## The promoted document -/

theorem find_updated (kvs entries : List (String × Json)) (key : String)
    (hnodup : (entries.map Prod.fst).Nodup) :
    Assoc.find (updated kvs entries) key = (Assoc.find entries key).or (Assoc.find kvs key) := by
  unfold updated
  induction entries generalizing kvs with
  | nil => rfl
  | cons e entries ih =>
    obtain ⟨hnot, hnodup⟩ := List.nodup_cons.mp hnodup
    rw [List.foldl_cons, ih _ hnodup, Assoc.find_put, Assoc.find_cons]
    by_cases hkey : e.1 = key
    · subst hkey
      rw [Assoc.find_eq_none.mpr hnot, if_pos rfl, if_pos rfl]
      rfl
    · rw [if_neg hkey, if_neg hkey]

theorem dictGet_updated {kvs entries : List (String × Json)} {key : String} {default : Json}
    (hnodup : (entries.map Prod.fst).Nodup) : dictGet (.obj (updated kvs entries)) key default =
      .ok (((Assoc.find entries key).or (Assoc.find kvs key)).getD default) := by
  rw [← find_updated kvs entries key hnodup]
  rfl

/-- A field of a document in canonical form. -/
theorem find_canon (kvs : List (String × Json)) (key : String) :
    Assoc.find (Assoc.sortKeys (canonFields kvs)) key = (Assoc.find kvs key).map canon := by
  rw [Assoc.find_sortKeys, find_canonFields]

theorem dictGet_canon {kvs : List (String × Json)} {key : String} {value : Json} (default : Json)
    (h : Assoc.find kvs key = some value) :
    dictGet (canon (.obj kvs)) key default = .ok (canon value) := by
  rw [canon]
  show Except.ok ((Assoc.find (Assoc.sortKeys (canonFields kvs)) key).getD default) = _
  rw [find_canon, h]
  rfl

theorem dictIndex_canon {kvs : List (String × Json)} {key : String} {value : Json}
    (h : Assoc.find kvs key = some value) :
    dictIndex (canon (.obj kvs)) key = .ok (canon value) := by
  rw [canon]
  show orRaise (keyError key) (Assoc.find (Assoc.sortKeys (canonFields kvs)) key) = _
  rw [find_canon, h]
  rfl

/-- The path a fact has in the documents of the runtime. -/
def pathOf (fact : ReconciledFact) : String := fact.subject ++ "." ++ fact.predicate

/-- Every fact has a value, and one path has one value. -/
def Executable (facts : List ReconciledFact) : Prop :=
  (∀ fact ∈ facts, fact.selectedValue ≠ .null) ∧
    ∀ fact ∈ facts, ∀ other ∈ facts, pathOf fact = pathOf other →
      pyEq fact.selectedValue other.selectedValue = true

section
variable {eng : Engine} {facts : List ReconciledFact}

theorem canon_eq_null {v : Json} : canon v = .null ↔ v = .null := by
  cases v <;> simp [canon]

/-- What the runtime reads of a fact in canonical form. -/
theorem factEntry_canon {kvs : List (String × Json)} {value : Json} {subject predicate : String}
    (hvalue : Assoc.find kvs "selected_value" = some value)
    (hsubject : Assoc.find kvs "subject" = some (.str subject))
    (hpredicate : Assoc.find kvs "predicate" = some (.str predicate)) :
    factEntry eng (canon (.obj kvs)) = if value = .null then .error unresolved
      else .ok (subject ++ "." ++ predicate, canon value) := by
  rw [canon]
  unfold factEntry resolvedFact
  simp only [find_canon, hvalue, Option.map_some, Option.getD_some, canon_eq_null]
  split
  · rfl
  · have hpath : factPath eng (Assoc.sortKeys (canonFields kvs)) =
        .ok (subject ++ "." ++ predicate) := by
      unfold factPath
      rw [find_canon, find_canon, hsubject, hpredicate]
      rfl
    exact bind_ok.mpr ⟨_, rfl, bind_ok.mpr ⟨_, hpath, rfl⟩⟩

theorem factEntry_dict (fact : ReconciledFact) : factEntry eng (canon fact.dict) =
    if fact.selectedValue = .null then .error unresolved
    else .ok (pathOf fact, canon fact.selectedValue) :=
  factEntry_canon rfl rfl rfl

theorem mapM_factEntry {entries : List (String × Json)} :
    (canonList (facts.map ReconciledFact.dict)).mapM (factEntry eng) = .ok entries ↔
      (∀ fact ∈ facts, fact.selectedValue ≠ .null) ∧
        entries = facts.map fun fact => (pathOf fact, canon fact.selectedValue) := by
  induction facts generalizing entries with
  | nil =>
    constructor
    · intro h
      cases h
      exact ⟨fun fact hfact => absurd hfact List.not_mem_nil, rfl⟩
    · rintro ⟨-, rfl⟩
      rfl
  | cons fact facts ih =>
    rw [List.map_cons, canonList, List.mapM_cons, factEntry_dict, List.forall_mem_cons]
    by_cases hnull : fact.selectedValue = .null
    · rw [if_pos hnull]
      exact iff_of_false (fun h => by cases h) fun h => h.1.1 hnull
    · rw [if_neg hnull]
      constructor
      · intro h
        obtain ⟨e, he, h⟩ := bind_ok.mp h
        obtain ⟨rest, hrest, h⟩ := bind_ok.mp h
        cases he
        cases h
        obtain ⟨hall, rfl⟩ := ih.mp hrest
        exact ⟨⟨hnull, hall⟩, rfl⟩
      · rintro ⟨⟨_, hall⟩, rfl⟩
        exact bind_ok.mpr ⟨_, rfl, bind_ok.mpr ⟨_, ih.mpr ⟨hall, rfl⟩, rfl⟩⟩

theorem consistent_iff : Consistent (facts.map fun fact =>
      (pathOf fact, canon fact.selectedValue)) ↔
    ∀ fact ∈ facts, ∀ other ∈ facts, pathOf fact = pathOf other →
      pyEq fact.selectedValue other.selectedValue = true := by
  have hcanon : ∀ v w : Json, pyEq (canon v) (canon w) = pyEq v w := fun v w =>
    pyEq_congr (same_canon v) (same_canon w)
  unfold Consistent
  rw [List.pairwise_map]
  simp only [hcanon]
  constructor
  · intro h fact hfact other hother
    exact h.forall_of_forall_of_flip (fun _ _ _ => pyEq_refl _)
      (h.imp fun hsame hpath => pyEq_symm (hsame hpath.symm)) hfact hother
  · intro h
    exact List.pairwise_of_forall_mem_list fun fact hfact other hother => h fact hfact other hother

/-- The facts of a document are executable exactly when the runtime can read them. -/
theorem executable_iff {d : Json} (hne : facts ≠ [])
    (hfacts : dictGet d "facts" .null = .ok (.arr (canonList (facts.map ReconciledFact.dict)))) :
    (∃ expected, expectedFacts eng d = .ok expected) ↔ Executable facts := by
  unfold Executable
  rw [← consistent_iff]
  constructor
  · rintro ⟨expected, h⟩
    obtain ⟨values, entries, hvalues, _, hentries, hconsistent, _⟩ := expectedFacts_ok.mp h
    cases hfacts.symm.trans hvalues
    obtain ⟨hall, rfl⟩ := mapM_factEntry.mp hentries
    exact ⟨hall, hconsistent⟩
  · rintro ⟨hall, hconsistent⟩
    refine ⟨_, expectedFacts_ok.mpr ⟨_, _, hfacts, ?_, mapM_factEntry.mpr ⟨hall, rfl⟩, hconsistent,
      rfl⟩⟩
    cases facts with
    | nil => exact absurd rfl hne
    | cons fact rest => exact List.cons_ne_nil _ _

end

/-! ## What the compiler emits -/

/-- A candidate has facts and references, and counts its conflicts. -/
structure Emitted (c : CompilerCandidate) : Prop where
  facts : c.facts ≠ []
  references : c.mechanism.sourceReferences ≠ []
  count : c.mechanism.conflictCount = c.conflicts.length
  distinct : c.conflicts.Nodup

theorem values_ofList_ne_nil {κ α : Type} [LinearOrder κ] {l : List (κ × α)} (h : l ≠ []) :
    (Dict.ofList l).values ≠ [] := by
  obtain ⟨k, v, hget⟩ := Dict.exists_get_ofList h
  exact List.ne_nil_of_mem (Dict.mem_values.mpr ⟨k, hget⟩)

theorem emitted {rd : Reader} {c : CompilerCandidate} (h : CandidateOf rd c) : Emitted c := by
  obtain ⟨input, output, hcompiled, hc⟩ := h
  obtain ⟨primitives, candidates, _, hcandidates, rfl⟩ := compileInstitution_ok.mp hcompiled
  obtain ⟨e, he, hok⟩ := mem_of_mapM hcandidates c hc
  obtain ⟨hfirst, -⟩ := Grouping.key_of_get (Dict.mem_entries.mp he) e.2.first List.mem_cons_self
  obtain ⟨_, _, hok⟩ := bind_ok.mp hok
  obtain ⟨_, _, hok⟩ := bind_ok.mp hok
  cases hok
  refine ⟨List.cons_ne_nil _ _, values_ofList_ne_nil fun hnil => ?_, rfl, nodup_sortedSet _⟩
  obtain ⟨key, group, _, hfact⟩ := mem_facts.mp hfirst
  have hreferences : e.2.first.sourceReferences ≠ [] := by
    rw [← hfact]
    exact values_ofList_ne_nil (List.map_eq_nil_iff.not.mpr (List.cons_ne_nil _ _))
  obtain ⟨r, hr⟩ := List.exists_mem_of_ne_nil _ hreferences
  rw [List.map_eq_nil_iff, List.flatMap_eq_nil_iff] at hnil
  rw [hnil e.2.first List.mem_cons_self] at hr
  cases hr

/-! ## Resolutions -/

theorem canonList_texts (texts : List String) :
    canonList (texts.map Json.str) = texts.map Json.str := by
  rw [canonList_eq_map, List.map_map]
  rfl

/-- The conflicts the registry reads of a candidate. -/
theorem conflictsOf_row (c : CompilerCandidate) :
    conflictsOf c.row.canon = .ok (c.conflicts.map .str) := by
  have hget : dictGet c.row.canon "conflict_ids" (.arr []) = .ok (.arr (c.conflicts.map .str)) := by
    have hcanon : canon (textsJson c.conflicts) = .arr (c.conflicts.map .str) := by
      rw [textsJson, canon, canonList_texts]
    rw [← hcanon]
    exact dictGet_canon _ rfl
  have hset : ∀ texts : List String, setOf (.arr (texts.map Json.str)) =
      .ok (texts.map Json.str) := by
    intro texts
    refine Fallible.mapM_of_forall₂ ?_
    rw [List.forall₂_same]
    intro v hv
    obtain ⟨text, _, rfl⟩ := List.mem_map.mp hv
    rfl
  exact bind_ok.mpr ⟨_, hget, hset _⟩

theorem get_merged {resolutions : Dict String String} {d : Dict String String} {key : String}
    (h : key ∈ resolutions.keys ∨ (d.get key).isSome = true) :
    ((resolutions.entries.foldl (fun d e => d.set e.1 e.2) d).get key).isSome = true := by
  unfold Dict.keys at h
  generalize resolutions.entries = entries at h ⊢
  induction entries generalizing d with
  | nil => exact h.resolve_left List.not_mem_nil
  | cons e entries ih =>
    refine ih ?_
    rw [Dict.get_set]
    by_cases hkey : e.1 = key
    · exact .inr (by rw [if_pos hkey]; rfl)
    · rw [if_neg hkey]
      exact h.imp_left fun h => (List.mem_cons.mp h).resolve_left fun heq => hkey heq.symm

/-- Every resolved conflict is among the merged resolutions. -/
theorem key_mem_merged {approvals : List ReviewRow} {r : ReviewRow} (hr : r ∈ approvals)
    {key : String} (hkey : key ∈ r.resolutions.keys) : key ∈ (mergedResolutions approvals).keys := by
  have hfold : ∀ (l : List ReviewRow) (d : Dict String String),
      (∃ r ∈ l, key ∈ r.resolutions.keys) ∨ (d.get key).isSome = true →
      ((l.foldl (fun d r => r.resolutions.entries.foldl (fun d e => d.set e.1 e.2) d) d).get
        key).isSome = true := by
    intro l
    induction l with
    | nil =>
      intro d h
      rcases h with ⟨r, hr, _⟩ | h
      · exact absurd hr List.not_mem_nil
      · exact h
    | cons first l ih =>
      intro d h
      refine ih _ ?_
      rcases h with ⟨r, hr, hin⟩ | h
      · rcases List.mem_cons.mp hr with rfl | hr
        · exact .inr (get_merged (.inl hin))
        · exact .inl ⟨r, hr, hin⟩
      · exact .inr (get_merged (.inr h))
  exact Dict.mem_keys.mpr (hfold approvals ∅ (.inl ⟨r, hr, hkey⟩))

/-- A candidate that is ready has a resolution for each of its conflicts. -/
theorem conflicts_le_merged {candidate : CandidateRow} {reviews : List ReviewRow}
    {c : CompilerCandidate} (hpayload : candidate.payload = c.row.canon) (hc : Emitted c)
    (hready : candidateStatus reviews candidate = .ok .readyToPromote) :
    c.conflicts.length ≤ (mergedResolutions (approvalsOf reviews)).keys.length := by
  obtain ⟨happrove, _, _, conflicts, hconflicts, hresolved⟩ := candidateStatus_ready hready
  rw [hpayload, conflictsOf_row] at hconflicts
  cases hconflicts
  refine (List.subperm_of_subset hc.distinct fun key hkey => ?_).length_le
  obtain ⟨r, hr, key', hkey', heq⟩ := hresolved (.str key) (List.mem_map_of_mem hkey)
  cases heq
  rw [approvalsOf_eq happrove]
  exact key_mem_merged hr hkey'

/-! ## The checks of a promoted document -/

section
variable {eng : Engine} {candidate : CandidateRow} {reviews : List ReviewRow} {promoterId : String}
  {c : CompilerCandidate} {mechanism metadata : List (String × Json)}

/-- What the checks read of a promoted document. -/
structure Readable (d : Json) (c : CompilerCandidate) (resolutions : Dict String String) : Prop where
  metadata : ∃ metadata, dictGet d "metadata" (.obj []) = .ok metadata ∧
    dictGet metadata "conflict_count" (.int 0) = .ok (.int c.conflicts.length) ∧
    dictGet metadata "resolved_conflicts" (.obj []) = .ok (resolutionsJson resolutions)
  approved : dictGet d "approved" .null = .ok (.bool true)
  binding : dictGet d "binding_authority" .null = .ok (.bool false)
  references : ∃ r rest, dictGet d "source_references" .null = .ok (.arr (r :: rest))
  facts : dictGet d "facts" .null = .ok (.arr (canonList (c.facts.map ReconciledFact.dict)))

theorem readable (hc : Emitted c) (hpayload : candidate.payload = c.row.canon)
    (approvals : List ReviewRow) {source facts : Json}
    (hsource : dictIndex candidate.payload "mechanism" = .ok source)
    (hmechanism : dictOf source = .ok mechanism)
    (hmetadata : dictOf ((Assoc.find mechanism "metadata").getD (.obj [])) = .ok metadata)
    (hfacts : dictGet candidate.payload "facts" (.arr []) = .ok facts) :
    Readable (.obj (promotedMechanism candidate approvals promoterId mechanism metadata facts)) c
      (mergedResolutions approvals) := by
  obtain ⟨kvs, inner, hdict, hinner, hreferences, hcount⟩ : ∃ kvs inner,
      c.mechanism.dict = .obj kvs ∧
      Assoc.find kvs "metadata" = some (.obj inner) ∧
      Assoc.find kvs "source_references" =
        some (.arr (c.mechanism.sourceReferences.map SourceReference.dict)) ∧
      Assoc.find inner "conflict_count" = some (.int c.mechanism.conflictCount) :=
    ⟨_, _, rfl, rfl, rfl, rfl⟩
  -- the document has the fields of the mechanism, in canonical form, under those of the promotion
  have hsource' : dictIndex candidate.payload "mechanism" = .ok (canon (.obj kvs)) := by
    rw [hpayload, ← hdict]
    exact dictIndex_canon rfl
  cases hsource.symm.trans hsource'
  cases hmechanism
  rw [find_canon, hinner] at hmetadata
  cases hmetadata
  have hfacts' : dictGet candidate.payload "facts" (.arr []) =
      .ok (canon (.arr (c.facts.map ReconciledFact.dict))) := by
    rw [hpayload]
    exact dictGet_canon _ rfl
  cases hfacts.symm.trans hfacts'
  have hkeys : (["metadata", "approved", "facts", "binding_authority"]).Nodup := by decide
  have hmetakeys : (["promoted_from_candidate", "candidate_sha256", "approval_ids",
    "resolved_conflicts", "promoter_id"]).Nodup := by decide
  unfold promotedMechanism
  constructor
  · refine ⟨.obj (updated _ _), dictGet_updated hkeys, ?_, dictGet_updated hmetakeys⟩
    rw [dictGet_updated, find_canon, hcount, hc.count]
    · rfl
    · exact hmetakeys
  · exact dictGet_updated hkeys
  · exact dictGet_updated hkeys
  · obtain ⟨r, rest, hsome⟩ := List.exists_cons_of_ne_nil hc.references
    refine ⟨canon r.dict, canonList (rest.map SourceReference.dict), ?_⟩
    rw [dictGet_updated, find_canon, hreferences, hsome]
    · rfl
    · exact hkeys
  · exact dictGet_updated hkeys

/-- **A promoted document passes the checks exactly when the facts of its candidate are
executable.** -/
theorem readable_checks {d : Json} {resolutions : Dict String String} (hc : Emitted c)
    (hd : Readable d c resolutions) (hcount : c.conflicts.length ≤ resolutions.keys.length) :
    ∃ checks, validateApprovedMechanism eng d = .ok checks ∧
      (checks.all = true ↔ Executable c.facts) := by
  obtain ⟨metadata, hmetadata, hconflicts, hresolved⟩ := hd.metadata
  obtain ⟨r, rest, hreferences⟩ := hd.references
  have hread : ∀ fact ∈ canonList (c.facts.map ReconciledFact.dict), ∀ e,
      factEntry eng fact = .error e → e.cls = .runtimeExecutionError := by
    intro fact hfact e he
    rw [canonList_eq_map, List.map_map] at hfact
    obtain ⟨f, _, rfl⟩ := List.mem_map.mp hfact
    rw [Function.comp_apply, factEntry_dict] at he
    split at he
    · cases he
      rfl
    · cases he
  obtain ⟨b, hb, hiff⟩ := factsConsistent_iff hd.facts hread
  rw [executable_iff hc.facts hd.facts] at hiff
  have htruthy : truthy (.arr (canonList (c.facts.map ReconciledFact.dict))) = true := by
    cases hfacts : c.facts with
    | nil => exact absurd hfacts hc.facts
    | cons fact rest => rfl
  have hconsistency : consistencyOf eng d
      (.arr (canonList (c.facts.map ReconciledFact.dict))) = .ok b := by
    unfold consistencyOf
    rw [if_pos htruthy]
    exact hb
  have hdone : conflictsResolved c.conflicts.length (resolutionsJson resolutions) = .ok true := by
    unfold conflictsResolved
    split
    · rfl
    · have hlength : Runtime.length (resolutionsJson resolutions) =
          .ok resolutions.keys.length := by
        show Except.ok (List.map _ _).length = _
        rw [List.length_map, Dict.keys, List.length_map]
      refine bind_ok.mpr ⟨_, hlength, ?_⟩
      exact congrArg Except.ok (decide_eq_true (Int.ofNat_le.mpr hcount))
  refine ⟨_, bind_ok.mpr ⟨_, hmetadata, bind_ok.mpr ⟨_, hconflicts, bind_ok.mpr ⟨_, rfl,
    bind_ok.mpr ⟨_, hresolved, bind_ok.mpr ⟨_, hd.approved, bind_ok.mpr ⟨_, hd.binding,
    bind_ok.mpr ⟨_, hreferences, bind_ok.mpr ⟨_, hd.facts, bind_ok.mpr ⟨_, hdone,
    bind_ok.mpr ⟨b, hconsistency, rfl⟩⟩⟩⟩⟩⟩⟩⟩⟩⟩, ?_⟩
  rw [checks_all, ← hiff]
  exact ⟨fun h => h.2.2.2.2.2, fun h => ⟨rfl, rfl, rfl, htruthy, rfl, h⟩⟩

end

/-- The checks of a promoted document read the facts of its candidate. -/
theorem promoted_checks {rd : Reader} {db : RegistryDb} (hcompiled : Compiled rd db) {now : Int}
    {candidateId promoterId : String} {timestamp : Option String} {d : Json}
    (h : (Call.run rd.toPython (.promote now candidateId promoterId timestamp) db).1 = .ok d) :
    ∃ candidate, db.candidates.get candidateId = some candidate ∧
      ∀ c, CandidateOf rd c → candidate.payload = c.row.canon → ∀ eng : Engine,
        ∃ checks, validateApprovedMechanism eng d = .ok checks ∧
          (checks.all = true ↔ Executable c.facts) := by
  rcases (alone_promotion hcompiled now candidateId promoterId timestamp).run Eq.refl with
    ⟨d', t, hrun, _, candidate, hfrom⟩ | ⟨e, t, hrun, _⟩
  · have hd : d' = d := Except.ok.inj ((congrArg Prod.fst hrun).symm.trans h)
    subst hd
    obtain ⟨source, mechanism, metadata, facts, hsource, hmechanism, hmetadata, hfacts, rfl⟩ :=
      hfrom.document
    exact ⟨candidate, hfrom.row, fun c hc hpayload eng => readable_checks (emitted hc)
      (readable (emitted hc) hpayload _ hsource hmechanism hmetadata hfacts)
      (conflicts_le_merged hpayload (emitted hc) hfrom.ready)⟩
  · exact absurd ((congrArg Prod.fst hrun).symm.trans h) nofun

end Edon.Runtime
