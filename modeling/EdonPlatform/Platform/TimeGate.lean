import EdonPlatform.Lib.Run
import EdonPlatform.Platform.Reconstruction

/- What a reconstruction with a cutoff shows of what was written after it. The events of
   the timeline are those recorded by the cutoff and the commands those requested by it;
   the receipts are not filtered, the state is the row there is now, and a command is the
   row there is now.

   What is proved:
     1. `time_gate_iff` — over every run of writes, the reconstruction and the package are
        the same after each of them exactly when none `Shows`: puts an event the cutoff
        admits into the timeline, adds a receipt of the case, moves the reported state,
        adds a command requested by the cutoff, or changes one.
     2. `later_writes_show` — writes after the cutoff that do. -/
namespace Edon.Platform
open Transition Js Fallible

section
variable (s : ForensicReconstructionService)

/-- The comparisons of the runtime and the database are consistent. -/
structure ForensicReconstructionService.Ordered : Prop where
  swap : ∀ a b, s.js.localeCompare a b ≤ 0 ↔ 0 ≤ s.js.localeCompare b a
  total : ∀ a b, s.pg.collate a b = true ∨ s.pg.collate b a = true
  trans : ∀ a b c, s.pg.collate a b = true → s.pg.collate b c = true → s.pg.collate a c = true

/-- The request is refused whatever the store holds. -/
def ReconstructionOptions.Refused (o : ReconstructionOptions) : Prop :=
  o.caseId = "" ∨ o.legalHold = some false

/-- Whether `x` comes before the new event `e` in the timeline. -/
def ahead (e x : EventEnvelope) : Bool :=
  if recordedBefore s.pg x e then timelineBefore s x e else ¬ timelineBefore s e x

/-- The write changes what the reconstruction of the case shows. -/
def Write.Shows (o : ReconstructionOptions) (store : CaseStore) : Write → Prop
  | .appendEvent e =>
    (s.pg.instant e.recordedAt).isSome ∧ store.db.journal.get e.eventId = none ∧
      e.incidentId = o.caseId ∧ o.admits e.recordedAt ∧
      ∀ n, o.offset.bind sliceEnd = some n → (store.admitted s o).countP (ahead s e) < n
  | .putReceipt r =>
    store.receipts.get r.receiptId = none ∧ incidentOf s (stored r.payload) = some o.caseId
  | .putState scopeId version expectedVersion _ _ =>
    scopeId = "memphis-fulfillment" ∧ version = expectedVersion + 1 ∧
      ∀ row, store.db.snapshots.get scopeId = some row → row.version = expectedVersion
  | .putExecution _ c =>
    store.executions.commands.get c.commandId = none ∧
      (∀ r ∈ store.executions.commands.rows,
        r.externalIdempotencyKey ≠ c.externalIdempotencyKey) ∧
      c.incidentId = o.caseId ∧ o.admits c.dispatchRequestedAt
  | .updateExecution c expectedStatus =>
    ∃ row, store.executions.commands.get c.commandId = some row ∧ row.status = expectedStatus ∧
      row.incidentId = o.caseId ∧
      (o.admits row.payload.dispatchRequestedAt ∨ o.admits c.dispatchRequestedAt) ∧
      row.payload ≠ c.kept
  | .putExecutionTransition _ => False

end

/-! ## Orders -/

section
variable {s : ForensicReconstructionService}

/-- The order of the timeline, in terms of `≤` alone. -/
theorem timelineBefore_iff (h : s.Ordered) {a b : EventEnvelope} :
    timelineBefore s a b ↔ s.js.localeCompare a.recordedAt b.recordedAt ≤ 0 ∧
      (s.js.localeCompare b.recordedAt a.recordedAt ≤ 0 →
        s.js.localeCompare a.eventId b.eventId ≤ 0) := by
  unfold timelineBefore
  have hswap := h.swap b.recordedAt a.recordedAt
  constructor
  · rintro (hlt | ⟨heq, hid⟩)
    · exact ⟨by omega, fun hle => by omega⟩
    · exact ⟨by omega, fun _ => hid⟩
  · rintro ⟨hle, hid⟩
    by_cases hge : s.js.localeCompare b.recordedAt a.recordedAt ≤ 0
    · exact .inr ⟨by omega, hid hge⟩
    · exact .inl (by omega)

theorem timeline_total (h : s.Ordered) : Std.Total (timelineBefore s) where
  total a b := by
    rw [timelineBefore_iff h, timelineBefore_iff h]
    have hrecorded := s.js.compare_total a.recordedAt b.recordedAt
    have hid := s.js.compare_total a.eventId b.eventId
    tauto

theorem timeline_trans (h : s.Ordered) : IsTrans EventEnvelope (timelineBefore s) where
  trans a b c := by
    rw [timelineBefore_iff h, timelineBefore_iff h, timelineBefore_iff h]
    rintro ⟨hab, hidab⟩ ⟨hbc, hidbc⟩
    refine ⟨s.js.compare_trans _ _ _ hab hbc, fun hca => ?_⟩
    have hba := s.js.compare_trans _ _ _ hbc hca
    have hcb := s.js.compare_trans _ _ _ hca hab
    exact s.js.compare_trans _ _ _ (hidab hba) (hidbc hcb)

/-- Rows in the order of a time and then of a text key. -/
theorem keyed_total {α : Type} (h : s.Ordered) (time : α → Int) (key : α → String) :
    Std.Total (fun a b => time a < time b ∨
      (time a = time b ∧ s.pg.collate (key a) (key b) = true)) where
  total a b := by
    rcases lt_trichotomy (time a) (time b) with hlt | heq | hgt
    · exact .inl (.inl hlt)
    · rcases h.total (key a) (key b) with hab | hba
      · exact .inl (.inr ⟨heq, hab⟩)
      · exact .inr (.inr ⟨heq.symm, hba⟩)
    · exact .inr (.inl hgt)

theorem keyed_trans {α : Type} (h : s.Ordered) (time : α → Int) (key : α → String) :
    IsTrans α (fun a b => time a < time b ∨
      (time a = time b ∧ s.pg.collate (key a) (key b) = true)) where
  trans a b c := by
    rintro (hab | ⟨hab, hkab⟩) (hbc | ⟨hbc, hkbc⟩)
    · exact .inl (by omega)
    · exact .inl (by omega)
    · exact .inl (by omega)
    · exact .inr ⟨hab.trans hbc, h.trans _ _ _ hkab hkbc⟩

/-! ## The timeline -/

/-- A prefix tells whether an element is in between, as long as it reaches that far. -/
theorem take_insert_iff {α : Type} {a b : List α} {e : α} (he : e ∉ b) (n : Nat) :
    (a ++ e :: b).take n = (a ++ b).take n ↔ n ≤ a.length := by
  constructor
  · intro h
    by_contra hlt
    have hget := congrArg (fun l : List α => l[a.length]?) h
    simp only [List.getElem?_take, not_le.mp hlt, if_true] at hget
    rw [List.getElem?_append_right (le_refl _), List.getElem?_append_right (le_refl _),
      Nat.sub_self] at hget
    exact he (List.mem_of_getElem? hget.symm)
  · intro hle
    rw [List.take_append_of_le_length hle, List.take_append_of_le_length hle]

theorem insert_ne {α : Type} (a b : List α) (e : α) : a ++ e :: b ≠ a ++ b := by
  intro h
  have hlength := congrArg List.length h
  simp at hlength

variable {o : ReconstructionOptions} {store : CaseStore}

/-- What a new event of the case does to the events the cutoff admits, and where it is
in the timeline. -/
theorem timeline_insert (h : s.Ordered) {e : EventEnvelope} {journal : Table EventEnvelope.eventId}
    (hcase : e.incidentId = o.caseId) (hadmits : o.admits e.recordedAt = true)
    (hinsert : store.db.journal.insert e = some journal) :
    ∃ a b, e ∉ b ∧ a.length = (store.admitted s o).countP (ahead s e) ∧
      (store.admitted s o).insertionSort (timelineBefore s) = a ++ b ∧
      (CaseStore.admitted s o { store with db := { store.db with journal } }).insertionSort
        (timelineBefore s) = a ++ e :: b := by
  have := timeline_total h
  have := timeline_trans h
  have : Std.Total (recordedBefore s.pg) := keyed_total h _ _
  have : IsTrans EventEnvelope (recordedBefore s.pg) := keyed_trans h _ _
  obtain ⟨hrows, hfresh⟩ := Table.rows_insert hinsert
  let rows := store.db.journal.rows.filter fun e => e.incidentId = o.caseId
  let l := (Sorting.low (recordedBefore s.pg) e rows []).filter (fun e => o.admits e.recordedAt)
  let m := (Sorting.high (recordedBefore s.pg) e rows []).filter (fun e => o.admits e.recordedAt)
  have hbefore : store.admitted s o = l ++ m := by
    have hsort := Sorting.insertionSort_low_high (r := recordedBefore s.pg) e rows []
    rw [List.append_nil] at hsort
    show (rows.insertionSort (recordedBefore s.pg)).filter _ = _
    rw [hsort, List.filter_append]
  have hafter : CaseStore.admitted s o { store with db := { store.db with journal } } =
      l ++ e :: m := by
    have hsort := Sorting.insertionSort_insert (r := recordedBefore s.pg) e rows []
    have hfilter : journal.rows.filter (fun e => e.incidentId = o.caseId) = rows ++ [e] := by
      rw [hrows, List.filter_append]
      simp [rows, hcase]
    show ((journal.rows.filter (fun e => e.incidentId = o.caseId)).insertionSort
      (recordedBefore s.pg)).filter _ = _
    rw [hfilter, hsort, List.filter_append, List.filter_cons, if_pos hadmits]
  refine ⟨Sorting.low (timelineBefore s) e l m, Sorting.high (timelineBefore s) e l m, ?_, ?_, ?_, ?_⟩
  · intro he
    have hmem : e ∈ l ∨ e ∈ m := Sorting.mem_of_mem_high he
    have hrow : e ∈ rows := by
      rcases hmem with hl | hm
      · exact (Sorting.mem_of_mem_low (List.mem_of_mem_filter hl)).resolve_right List.not_mem_nil
      · exact (Sorting.mem_of_mem_high (List.mem_of_mem_filter hm)).resolve_right List.not_mem_nil
    exact Table.get_eq_none.mp hfresh e (List.mem_of_mem_filter hrow) rfl
  · rw [Sorting.length_low, hbefore, List.countP_append]
    congr 1
    · apply List.countP_congr
      intro x hx
      have hrel := Sorting.rel_of_mem_low (List.mem_of_mem_filter hx)
      unfold ahead
      rw [if_pos hrel]
    · apply List.countP_congr
      intro x hx
      have hrel := Sorting.not_rel_of_mem_high (List.mem_of_mem_filter hx)
      unfold ahead
      rw [if_neg hrel]
  · rw [hbefore]
    exact Sorting.insertionSort_low_high e l m
  · rw [hafter]
    exact Sorting.insertionSort_insert e l m

/-- What is added to the journal of another case, or past the cutoff, is not admitted. -/
theorem admitted_eq (h : s.Ordered) {e : EventEnvelope} {journal : Table EventEnvelope.eventId}
    (hother : e.incidentId ≠ o.caseId ∨ o.admits e.recordedAt = false)
    (hinsert : store.db.journal.insert e = some journal) :
    CaseStore.admitted s o { store with db := { store.db with journal } } = store.admitted s o := by
  have : Std.Total (recordedBefore s.pg) := keyed_total h _ _
  have : IsTrans EventEnvelope (recordedBefore s.pg) := keyed_trans h _ _
  obtain ⟨hrows, _⟩ := Table.rows_insert hinsert
  show ((journal.rows.filter (fun e => e.incidentId = o.caseId)).insertionSort
    (recordedBefore s.pg)).filter _ =
      ((store.db.journal.rows.filter (fun e => e.incidentId = o.caseId)).insertionSort
        (recordedBefore s.pg)).filter _
  rw [hrows, List.filter_append]
  by_cases hcase : e.incidentId = o.caseId
  · have hadmits := hother.resolve_left (not_not.mpr hcase)
    have hfilter : [e].filter (fun e => e.incidentId = o.caseId) = [e] := by simp [hcase]
    have hsort := Sorting.insertionSort_low_high (r := recordedBefore s.pg) e
      (store.db.journal.rows.filter fun e => e.incidentId = o.caseId) []
    rw [List.append_nil] at hsort
    rw [hfilter, Sorting.insertionSort_insert, hsort, List.filter_append, List.filter_append,
      List.filter_cons, hadmits]
    rfl
  · have hfilter : [e].filter (fun e => e.incidentId = o.caseId) = [] := by simp [hcase]
    rw [hfilter, List.append_nil]

/-- The timeline shows a new event that the cutoff admits, unless the offset ends before it. -/
theorem timeline_event (h : s.Ordered) {e : EventEnvelope} {journal : Table EventEnvelope.eventId}
    (hinsert : store.db.journal.insert e = some journal) :
    CaseStore.timeline s o { store with db := { store.db with journal } } = store.timeline s o ↔
      ¬ (e.incidentId = o.caseId ∧ o.admits e.recordedAt ∧
        ∀ n, o.offset.bind sliceEnd = some n → (store.admitted s o).countP (ahead s e) < n) := by
  by_cases hcase : e.incidentId = o.caseId ∧ o.admits e.recordedAt = true
  · obtain ⟨a, b, he, hlength, hbefore, hafter⟩ := timeline_insert h hcase.1 hcase.2 hinsert
    unfold CaseStore.timeline
    rw [hbefore, hafter, ← hlength]
    simp only [hcase, true_and]
    cases hend : o.offset.bind sliceEnd with
    | none => simp
    | some n =>
      show (a ++ e :: b).take n = (a ++ b).take n ↔ _
      rw [take_insert_iff he]
      simp
  · have hother : e.incidentId ≠ o.caseId ∨ o.admits e.recordedAt = false := by
      by_cases hid : e.incidentId = o.caseId
      · exact .inr (by simpa [hid] using hcase)
      · exact .inl hid
    unfold CaseStore.timeline
    rw [admitted_eq h hother hinsert]
    simp only [true_iff]
    rintro ⟨hid, hadmits, _⟩
    exact hcase ⟨hid, hadmits⟩

/-! ## The commands -/

/-- The commands show a new one of the case that was requested by the cutoff. -/
theorem commands_put (h : s.Ordered) {c : ExecutionCommand} {now : Int}
    {commands : Table ExecutionRow.commandId}
    (hinsert : store.executions.commands.insert (c.row now) = some commands) :
    CaseStore.commands s o { store with executions := { store.executions with commands } } =
        store.commands s o ↔
      ¬ (c.incidentId = o.caseId ∧ o.admits c.dispatchRequestedAt) := by
  have : Std.Total (createdBefore s.pg) := keyed_total h _ _
  have : IsTrans ExecutionRow (createdBefore s.pg) := keyed_trans h _ _
  obtain ⟨hrows, _⟩ := Table.rows_insert hinsert
  unfold CaseStore.commands Executions.listExecutions Executions.rowsOf
  dsimp only
  rw [hrows, List.filter_append]
  by_cases hcase : c.incidentId = o.caseId
  · have hfilter : [c.row now].filter (fun r => r.incidentId = o.caseId) = [c.row now] := by
      simp [ExecutionCommand.row, hcase]
    have hsort := Sorting.insertionSort_low_high (r := createdBefore s.pg) (c.row now)
      (store.executions.commands.rows.filter fun r => r.incidentId = o.caseId) []
    rw [List.append_nil] at hsort
    rw [hfilter, Sorting.insertionSort_insert, hsort, List.map_append, List.map_append,
      List.filter_append, List.filter_append, List.map_cons, List.filter_cons]
    have hrequested : (c.row now).payload.dispatchRequestedAt = c.dispatchRequestedAt := rfl
    rw [hrequested]
    by_cases hadmits : o.admits c.dispatchRequestedAt = true
    · rw [if_pos hadmits]
      simp [hcase, hadmits]
    · rw [if_neg hadmits]
      simp [hadmits]
  · have hfilter : [c.row now].filter (fun r => r.incidentId = o.caseId) = [] := by
      simp [ExecutionCommand.row, hcase]
    rw [hfilter, List.append_nil]
    simp [hcase]

/-- The rows of the case after an update, in the same order. -/
theorem rowsOf_update (c : ExecutionCommand) (caseId : String) (t : Executions) :
    Executions.rowsOf s.pg caseId { t with
        commands := t.commands.modify c.commandId (ExecutionRow.update c)
          (ExecutionRow.update_commandId c) } =
      (t.rowsOf s.pg caseId).map (fun r => if r.commandId = c.commandId then r.update c else r) := by
  unfold Executions.rowsOf
  dsimp only
  rw [List.map_insertionSort (createdBefore s.pg) (createdBefore s.pg), Table.rows_modify,
    List.filter_map]
  · congr 3
    funext r
    show decide ((if r.commandId = c.commandId then r.update c else r).incidentId = caseId) = _
    split <;> rfl
  · intro a _ b _
    have hcreated : ∀ r : ExecutionRow,
        (if r.commandId = c.commandId then r.update c else r).createdAt = r.createdAt ∧
          (if r.commandId = c.commandId then r.update c else r).commandId = r.commandId := by
      intro r
      split <;> exact ⟨rfl, rfl⟩
    unfold createdBefore
    rw [(hcreated a).1, (hcreated a).2, (hcreated b).1, (hcreated b).2]

theorem mem_rowsOf {t : Executions} {caseId : String} {r : ExecutionRow} :
    r ∈ t.rowsOf s.pg caseId ↔ r ∈ t.commands.rows ∧ r.incidentId = caseId := by
  unfold Executions.rowsOf
  rw [List.mem_insertionSort, List.mem_filter]
  simp

theorem rowsOf_keys (t : Executions) (caseId : String) :
    ((t.rowsOf s.pg caseId).map ExecutionRow.commandId).Nodup := by
  have hperm := (List.perm_insertionSort (createdBefore s.pg)
    (t.commands.rows.filter (fun r => r.incidentId = caseId))).map ExecutionRow.commandId
  apply hperm.nodup_iff.mpr
  exact t.commands.unique.sublist (List.filter_sublist.map _)

/-- An update leaves the rows with other ids alone. -/
theorem update_others {c : ExecutionCommand} {row : ExecutionRow} {l : List ExecutionRow}
    (hkey : row.commandId = c.commandId) (h : row.commandId ∉ l.map ExecutionRow.commandId) :
    l.map (fun r => if r.commandId = c.commandId then r.update c else r) = l := by
  rw [List.map_congr_left (g := id), List.map_id]
  intro r hr
  apply if_neg
  intro hsame
  exact h (List.mem_map.mpr ⟨r, hr, hsame.trans hkey.symm⟩)

/-- The commands show an update that changes a command of the case, if it was requested by the
cutoff before or after. -/
theorem commands_update {c : ExecutionCommand} {row : ExecutionRow}
    (hget : store.executions.commands.get c.commandId = some row) :
    CaseStore.commands s o { store with executions := { store.executions with
        commands := store.executions.commands.modify c.commandId (ExecutionRow.update c)
          (ExecutionRow.update_commandId c) } } = store.commands s o ↔
      ¬ (row.incidentId = o.caseId ∧
        (o.admits row.payload.dispatchRequestedAt ∨ o.admits c.dispatchRequestedAt) ∧
        row.payload ≠ c.kept) := by
  obtain ⟨hrow, hkey⟩ := Table.get_eq_some.mp hget
  unfold CaseStore.commands Executions.listExecutions
  dsimp only
  rw [rowsOf_update]
  by_cases hcase : row.incidentId = o.caseId
  · obtain ⟨a, b, hsplit⟩ := List.append_of_mem (mem_rowsOf.mpr ⟨hrow, hcase⟩ :
      row ∈ store.executions.rowsOf s.pg o.caseId)
    -- no other row of the case has the id
    have hkeys := rowsOf_keys (s := s) store.executions o.caseId
    rw [hsplit, List.map_append, List.map_cons, List.nodup_middle, List.nodup_cons,
      List.mem_append, not_or] at hkeys
    rw [hsplit, List.map_append, List.map_cons, if_pos hkey, update_others hkey hkeys.1.1,
      update_others hkey hkeys.1.2]
    simp only [List.map_append, List.map_cons, List.filter_append]
    rw [List.append_cancel_left_eq, List.filter_cons, List.filter_cons]
    have hafter : (row.update c).payload = c.kept := rfl
    have hrequested : c.kept.dispatchRequestedAt = c.dispatchRequestedAt := rfl
    rw [hafter, hrequested]
    by_cases hbefore : o.admits row.payload.dispatchRequestedAt = true
    · by_cases hlater : o.admits c.dispatchRequestedAt = true
      · rw [if_pos hbefore, if_pos hlater, List.cons.injEq]
        constructor
        · rintro ⟨hsame, _⟩ ⟨_, _, hne⟩
          exact hne hsame.symm
        · intro hnot
          refine ⟨?_, rfl⟩
          by_contra hne
          exact hnot ⟨hcase, .inl hbefore, fun heq => hne heq.symm⟩
      · rw [if_pos hbefore, if_neg hlater]
        have hne : row.payload ≠ c.kept := by
          intro heq
          rw [heq, hrequested] at hbefore
          exact hlater hbefore
        simp [hcase, hbefore, hne]
    · by_cases hlater : o.admits c.dispatchRequestedAt = true
      · rw [if_neg hbefore, if_pos hlater]
        have hne : row.payload ≠ c.kept := by
          intro heq
          rw [heq, hrequested] at hbefore
          exact hbefore hlater
        simp [hcase, hlater, hne]
      · rw [if_neg hbefore, if_neg hlater]
        simp [hbefore, hlater]
  · have hout : row.commandId ∉ (store.executions.rowsOf s.pg o.caseId).map
        ExecutionRow.commandId := by
      intro hmem
      obtain ⟨r, hr, hsame⟩ := List.mem_map.mp hmem
      obtain ⟨hr, hother⟩ := mem_rowsOf.mp hr
      rw [Table.eq_of_key hr hrow hsame] at hother
      exact hcase hother
    rw [update_others hkey hout]
    simp [hcase]

/-! ## One write -/

theorem reconstruct_accepted (hnot : ¬ o.Refused) :
    store.reconstruct s o = .ok (store.reconstruction s o) := by
  have hcase : o.caseId ≠ "" := fun h => hnot (.inl h)
  have hhold : o.legalHold ≠ some false := fun h => hnot (.inr h)
  unfold CaseStore.reconstruct require
  rw [decide_eq_true hcase, decide_eq_true hhold]
  rfl

theorem reconstruct_refused {store' : CaseStore} (h : o.Refused) :
    store'.reconstruct s o = store.reconstruct s o := by
  unfold CaseStore.reconstruct require
  rcases h with h | h
  · rw [h]
    rfl
  · rw [h]
    cases decide (o.caseId ≠ "") <;> rfl

/-- A reconstruction is its four parts. -/
theorem reconstruct_eq_iff {store' : CaseStore} (hnot : ¬ o.Refused) :
    store'.reconstruct s o = store.reconstruct s o ↔
      store'.timeline s o = store.timeline s o ∧ store'.state = store.state ∧
        store'.listReceipts s o.caseId = store.listReceipts s o.caseId ∧
        store'.commands s o = store.commands s o := by
  rw [reconstruct_accepted hnot, reconstruct_accepted hnot]
  constructor
  · intro h
    have hsame := Except.ok.inj h
    exact ⟨congrArg Reconstruction.events hsame, congrArg Reconstruction.state hsame,
      congrArg Reconstruction.receipts hsame, congrArg Reconstruction.commands hsame⟩
  · rintro ⟨hevents, hstate, hreceipts, hcommands⟩
    unfold CaseStore.reconstruction
    rw [hevents, hstate, hreceipts, hcommands]

/-- The receipts show a new one of the case. -/
theorem receipts_put {r : Receipt} {receipts : Table Receipt.receiptId}
    (hinsert : store.receipts.insert r = some receipts) :
    CaseStore.listReceipts s o.caseId { store with receipts } = store.listReceipts s o.caseId ↔
      incidentOf s r.payload ≠ some o.caseId := by
  obtain ⟨hrows, _⟩ := Table.rows_insert hinsert
  unfold CaseStore.listReceipts
  dsimp only
  rw [hrows, List.filter_append]
  by_cases hcase : incidentOf s r.payload = some o.caseId
  · simp only [hcase, ne_eq, not_true_eq_false, iff_false]
    intro hsame
    have hlength := congrArg List.length hsame
    simp [hcase] at hlength
  · simp [hcase]

/-- An update of the state takes place where it is the next version of the row, if any. -/
theorem putState_some_iff {db db' : Db} {scopeId : String} {version expectedVersion : Int}
    {values : Value} {stateHash : String} :
    db.putState scopeId version expectedVersion values stateHash = some db' ↔
      version = expectedVersion + 1 ∧
        (∀ row, db.snapshots.get scopeId = some row → row.version = expectedVersion) ∧
        db' = { db with
          snapshots := db.snapshots.set scopeId ⟨version, stored values, stateHash⟩ } := by
  unfold Db.putState
  dsimp only
  by_cases hversion : version = expectedVersion + 1
  · rw [if_pos hversion]
    cases hget : db.snapshots.get scopeId with
    | none => simp [hversion, eq_comm]
    | some row =>
      dsimp only
      by_cases hrow : row.version = expectedVersion
      · simp [hversion, hrow, eq_comm]
      · simp [hrow]
  · simp [hversion]

/-- The state shows an update of its scope that took place. -/
theorem state_put {scopeId : String} {version expectedVersion : Int} {values : Value}
    {stateHash : String} {db : Db}
    (hput : store.db.putState scopeId version expectedVersion values stateHash = some db) :
    CaseStore.state { store with db } = store.state ↔ scopeId ≠ "memphis-fulfillment" := by
  obtain ⟨hversion, hcurrent, rfl⟩ := putState_some_iff.mp hput
  unfold CaseStore.state Db.getState
  dsimp only
  by_cases hscope : scopeId = "memphis-fulfillment"
  · subst hscope
    rw [Dict.get_set_self]
    simp only [ne_eq, not_true_eq_false, iff_false]
    intro hsame
    cases hget : store.db.snapshots.get "memphis-fulfillment" with
    | none =>
      rw [hget] at hsame
      cases hsame
    | some row =>
      rw [hget] at hsame
      have hrow : version = row.version := congrArg Prod.fst (Option.some.inj hsame)
      rw [hcurrent row hget] at hrow
      omega
  · rw [Dict.get_set_ne _ _ hscope]
    simp [hscope]

theorem appendEvent_same_iff (h : s.Ordered) (hnot : ¬ o.Refused) (e : EventEnvelope) :
    (store.write s (.appendEvent e)).reconstruct s o = store.reconstruct s o ↔
      ¬ Write.Shows s o store (.appendEvent e) := by
  cases hinstant : s.pg.instant e.recordedAt with
  | none =>
    have hwrite : store.write s (.appendEvent e) = store := by
      unfold CaseStore.write Db.appendEvent timestamptz
      dsimp only
      rw [hinstant]
      rfl
    rw [hwrite]
    simp [Write.Shows, hinstant]
  | some time =>
    cases hinsert : store.db.journal.insert e.journaled with
    | none =>
      have hwrite : store.write s (.appendEvent e) = store := by
        unfold CaseStore.write Db.appendEvent timestamptz
        dsimp only
        rw [hinstant, hinsert]
        rfl
      have htaken : store.db.journal.get e.eventId ≠ none := by
        intro hnone
        obtain ⟨u, hu⟩ := Table.insert_of_get (r := e.journaled) hnone
        rw [hu] at hinsert
        cases hinsert
      rw [hwrite]
      simp [Write.Shows, htaken]
    | some journal =>
      have hwrite : store.write s (.appendEvent e) =
          { store with db := { store.db with journal } } := by
        unfold CaseStore.write Db.appendEvent timestamptz
        dsimp only
        rw [hinstant, hinsert]
        rfl
      have hfresh : store.db.journal.get e.eventId = none := (Table.rows_insert hinsert).2
      rw [hwrite, reconstruct_eq_iff hnot, timeline_event h hinsert]
      unfold Write.Shows
      dsimp only
      rw [hinstant, hfresh]
      constructor
      · rintro ⟨hhidden, _⟩ ⟨_, _, hshown⟩
        exact hhidden hshown
      · intro hhidden
        exact ⟨fun hshown => hhidden ⟨rfl, rfl, hshown⟩, rfl, rfl, rfl⟩

theorem putReceipt_same_iff (hnot : ¬ o.Refused) (r : Receipt) :
    (store.write s (.putReceipt r)).reconstruct s o = store.reconstruct s o ↔
      ¬ Write.Shows s o store (.putReceipt r) := by
  unfold CaseStore.write CaseStore.putReceipt Write.Shows
  dsimp only
  split
  · next receipts hinsert =>
    have hfresh : store.receipts.get r.receiptId = none := (Table.rows_insert hinsert).2
    rw [reconstruct_eq_iff hnot, receipts_put hinsert, hfresh]
    constructor
    · rintro ⟨_, _, hother, _⟩ ⟨_, hcase⟩
      exact hother hcase
    · intro hother
      exact ⟨rfl, rfl, fun hcase => hother ⟨rfl, hcase⟩, rfl⟩
  · next hinsert =>
    have htaken : store.receipts.get r.receiptId ≠ none := by
      intro hnone
      obtain ⟨u, hu⟩ :=
        Table.insert_of_get (t := store.receipts) (r := { r with payload := stored r.payload }) hnone
      rw [hu] at hinsert
      cases hinsert
    simp [htaken]

theorem putState_same_iff (hnot : ¬ o.Refused) (scopeId : String) (version expectedVersion : Int)
    (values : Value) (stateHash : String) :
    (store.write s (.putState scopeId version expectedVersion values stateHash)).reconstruct s o =
        store.reconstruct s o ↔
      ¬ Write.Shows s o store (.putState scopeId version expectedVersion values stateHash) := by
  unfold CaseStore.write Write.Shows
  dsimp only
  split
  · next db hput =>
    obtain ⟨hversion, hcurrent, hdb⟩ := putState_some_iff.mp hput
    rw [reconstruct_eq_iff hnot, state_put hput]
    constructor
    · rintro ⟨_, hother, _⟩ ⟨hscope, _⟩
      exact hother hscope
    · intro hother
      subst hdb
      exact ⟨rfl, fun hscope => hother ⟨hscope, hversion, hcurrent⟩, rfl, rfl⟩
  · next hnone =>
    simp only [true_iff]
    rintro ⟨_, hversion, hcurrent⟩
    rw [putState_some_iff.mpr ⟨hversion, hcurrent, rfl⟩] at hnone
    cases hnone

theorem putExecution_same_iff (h : s.Ordered) (hnot : ¬ o.Refused) (now : Int)
    (c : ExecutionCommand) :
    (store.write s (.putExecution now c)).reconstruct s o = store.reconstruct s o ↔
      ¬ Write.Shows s o store (.putExecution now c) := by
  unfold CaseStore.write Executions.putExecution Write.Shows
  dsimp only
  cases hinsert : store.executions.commands.insert (c.row now) with
  | none =>
    have htaken : store.executions.commands.get c.commandId ≠ none := by
      intro hnone
      obtain ⟨u, hu⟩ := Table.insert_of_get (r := c.row now) hnone
      rw [hu] at hinsert
      cases hinsert
    simp [htaken]
  | some commands =>
    have hfresh : store.executions.commands.get c.commandId = none := (Table.rows_insert hinsert).2
    dsimp only
    by_cases hkey : store.executions.commands.rows.any
        (fun r => r.externalIdempotencyKey = c.externalIdempotencyKey) = true
    · rw [if_pos hkey]
      simp only [true_iff]
      rintro ⟨_, hkeys, _⟩
      obtain ⟨r, hr, hsame⟩ := List.any_eq_true.mp hkey
      exact hkeys r hr (of_decide_eq_true hsame)
    · rw [if_neg hkey]
      dsimp only
      rw [reconstruct_eq_iff hnot, commands_put h hinsert, hfresh]
      constructor
      · rintro ⟨_, _, _, hother⟩ ⟨_, _, hshown⟩
        exact hother hshown
      · intro hother
        refine ⟨rfl, rfl, rfl, fun hshown => hother ⟨rfl, ?_, hshown⟩⟩
        intro r hr hsame
        exact hkey (List.any_eq_true.mpr ⟨r, hr, decide_eq_true hsame⟩)

theorem updateExecution_same_iff (hnot : ¬ o.Refused) (c : ExecutionCommand)
    (expectedStatus : ExecutionStatus) :
    (store.write s (.updateExecution c expectedStatus)).reconstruct s o = store.reconstruct s o ↔
      ¬ Write.Shows s o store (.updateExecution c expectedStatus) := by
  unfold CaseStore.write Executions.updateExecution Write.Shows
  dsimp only
  cases hget : store.executions.commands.get c.commandId with
  | none => simp
  | some row =>
    dsimp only
    by_cases hstatus : row.status = expectedStatus
    · rw [if_pos hstatus, reconstruct_eq_iff hnot, commands_update hget]
      constructor
      · rintro ⟨_, _, _, hother⟩ ⟨row', hrow', _, hshown⟩
        cases hrow'
        exact hother hshown
      · intro hother
        exact ⟨rfl, rfl, rfl, fun hshown => hother ⟨row, rfl, hstatus, hshown⟩⟩
    · rw [if_neg hstatus]
      simp only [true_iff]
      rintro ⟨row', hrow', hsame, _⟩
      cases hrow'
      exact hstatus hsame

theorem putExecutionTransition_same (hnot : ¬ o.Refused) (transition : ExecutionTransition) :
    (store.write s (.putExecutionTransition transition)).reconstruct s o =
      store.reconstruct s o := by
  unfold CaseStore.write Executions.putExecutionTransition
  dsimp only
  split
  · next executions hput =>
    obtain ⟨_, _, hput⟩ := bind_ok.mp hput
    have hput := Except.ok.inj hput
    rw [reconstruct_eq_iff hnot]
    split at hput <;> cases hput <;> exact ⟨rfl, rfl, rfl, rfl⟩
  · rfl

theorem write_same_iff (h : s.Ordered) (w : Write) :
    (store.write s w).reconstruct s o = store.reconstruct s o ↔
      o.Refused ∨ ¬ w.Shows s o store := by
  by_cases hrefused : o.Refused
  · have hsame : (store.write s w).reconstruct s o = store.reconstruct s o :=
      reconstruct_refused hrefused
    simp [hrefused, hsame]
  · rw [or_iff_right hrefused]
    cases w with
    | appendEvent e => exact appendEvent_same_iff h hrefused e
    | putReceipt r => exact putReceipt_same_iff hrefused r
    | putState scopeId version expectedVersion values stateHash =>
      exact putState_same_iff hrefused scopeId version expectedVersion values stateHash
    | putExecution now c => exact putExecution_same_iff h hrefused now c
    | updateExecution c expectedStatus => exact updateExecution_same_iff hrefused c expectedStatus
    | putExecutionTransition transition =>
      simp [putExecutionTransition_same hrefused, Write.Shows]

/-! ## Runs of writes -/

theorem exportPackage_congr {store' : CaseStore}
    (h : store'.reconstruct s o = store.reconstruct s o) :
    store'.exportPackage s o = store.exportPackage s o := by
  unfold CaseStore.exportPackage
  rw [h]

/-- **The time gate.** After every write of a run the reconstruction and the package are what
they were before it, exactly when no write shows. -/
theorem time_gate_iff (h : s.Ordered) (o : ReconstructionOptions) (store : CaseStore)
    (writes : List Write) :
    Along (CaseStore.write s) (fun _ _ later => later.reconstruct s o = store.reconstruct s o ∧
        later.exportPackage s o = store.exportPackage s o) store writes ↔
      Along (CaseStore.write s) (fun now w _ => o.Refused ∨ ¬ w.Shows s o now) store writes := by
  calc
    _ ↔ Along (CaseStore.write s)
        (fun _ _ later => later.reconstruct s o = store.reconstruct s o) store writes := by
      apply along_congr
      intro now w
      exact and_iff_left_of_imp exportPackage_congr
    _ ↔ Along (CaseStore.write s)
        (fun now _ later => later.reconstruct s o = now.reconstruct s o) store writes :=
      along_constant_iff rfl writes
    _ ↔ _ := by
      apply along_congr
      intro now w
      exact write_same_iff h w

end

/-! ## Writes after a cutoff -/

/-- The write is one from after the cutoff, as far as what it writes has a time. -/
def Write.Later (o : ReconstructionOptions) : Write → Prop
  | .appendEvent e => o.admits e.recordedAt = false
  | .putExecution _ c => o.admits c.dispatchRequestedAt = false
  | .putExecutionTransition t => o.admits t.recordedAt = false
  | .putReceipt _ | .putState .. | .updateExecution .. => True

/-- Texts in the order of their code points. -/
def compareTexts (a b : String) : Int := if a < b then -1 else if a = b then 0 else 1

theorem compareTexts_le {a b : String} : compareTexts a b ≤ 0 ↔ a ≤ b := by
  unfold compareTexts
  rcases lt_trichotomy a b with h | h | h
  · simp [h, h.le]
  · simp [h]
  · simp [h.not_gt, h.ne', h.not_ge]

theorem le_compareTexts {a b : String} : 0 ≤ compareTexts a b ↔ b ≤ a := by
  unfold compareTexts
  rcases lt_trichotomy a b with h | h | h
  · simp [h, h.not_ge]
  · simp [h]
  · simp [h.not_gt, h.ne', h.le]

def sampleForensics : ForensicReconstructionService where
  js := { Runtime.sample with
    localeCompare := compareTexts
    compare_total a b := by
      rw [compareTexts_le, compareTexts_le]
      exact le_total a b
    compare_trans a b c := by
      rw [compareTexts_le, compareTexts_le, compareTexts_le]
      exact le_trans }
  pg := { instant := fun _ => some 0, collate := fun a b => a ≤ b }
  tenantId := "tenant-1"
  sha256 := id
  stringify := fun _ => ""
  jsonbText := fun _ => ""
  sign := fun text => .ok ⟨"local:" ++ text, "local-test-key-v1", some "1", "TEST-HASH",
    "1970-01-01T00:00:00.000Z", text⟩

theorem sampleForensics_ordered : sampleForensics.Ordered where
  swap a b := by
    show compareTexts a b ≤ 0 ↔ 0 ≤ compareTexts b a
    rw [compareTexts_le, le_compareTexts]
  total a b := by
    show decide (a ≤ b) = true ∨ decide (b ≤ a) = true
    rw [decide_eq_true_iff, decide_eq_true_iff]
    exact le_total a b
  trans a b c := by
    show decide (a ≤ b) = true → decide (b ≤ c) = true → decide (a ≤ c) = true
    rw [decide_eq_true_iff, decide_eq_true_iff, decide_eq_true_iff]
    exact le_trans

def newYear : ReconstructionOptions where
  caseId := "INC-1042"
  cutoff := some "2026-01-01T00:00:00.000Z"

/-- A command requested in December. -/
def pendingCommand : ExecutionCommand where
  commandId := "cmd-1"
  incidentId := "INC-1042"
  proposalId := "PROP-1042"
  status := .dispatchPending
  commandHash := "sha256:command"
  authorizationId := "decision-1"
  proposalHash := "sha256:proposal"
  stateVersion := 141
  externalIdempotencyKey := "external-1"
  connector := "none"
  resource := "INC-1042"
  credentialScope := "NONE"
  dispatchRequestedAt := "2025-12-31T00:00:00.000Z"
  expiresAt := "2025-12-31T00:05:00.000Z"

def december : CaseStore :=
  exec (CaseStore.write sampleForensics) {} [.putExecution 0 pendingCommand]

/-- In January the command is rejected, the state moves and a receipt is issued. -/
def january : List Write :=
  [.updateExecution { pendingCommand with status := .dispatchRejected } .dispatchPending,
   .putExecutionTransition ⟨"cmd-1:DISPATCH_REJECTED", "cmd-1", some .dispatchPending,
     .dispatchRejected, .null, "2026-01-02T00:00:00.000Z"⟩,
   .putState "memphis-fulfillment" 142 141 .null "sha256:state",
   .putReceipt ⟨"receipt-1", .obj [("incident_id", .str "INC-1042")]⟩]

theorem time_gate_iff_january :
    Along (CaseStore.write sampleForensics)
        (fun _ _ later =>
          later.reconstruct sampleForensics newYear = december.reconstruct sampleForensics newYear ∧
          later.exportPackage sampleForensics newYear =
            december.exportPackage sampleForensics newYear) december january ↔
      Along (CaseStore.write sampleForensics)
        (fun now w _ => newYear.Refused ∨ ¬ w.Shows sampleForensics newYear now) december january :=
  time_gate_iff sampleForensics_ordered newYear december january

/-- Writes after the cutoff that the reconstruction as of the cutoff shows. -/
theorem later_writes_show :
    ¬ ∀ (o : ReconstructionOptions) (store : CaseStore) (writes : List Write),
      (∀ w ∈ writes, w.Later o) →
      (exec (CaseStore.write sampleForensics) store writes).reconstruct sampleForensics o =
        store.reconstruct sampleForensics o := by
  intro h
  have hlater : ∀ w ∈ january, w.Later newYear := by
    intro w hw
    unfold january at hw
    simp only [List.mem_cons, List.not_mem_nil, or_false] at hw
    have htransition : newYear.admits "2026-01-02T00:00:00.000Z" = false := by decide +kernel
    rcases hw with rfl | rfl | rfl | rfl
    · trivial
    · exact htransition
    · trivial
    · trivial
  have hsame := h newYear december january hlater
  have hnot : ¬ newYear.Refused := by
    rintro (h | h)
    · exact absurd h (by decide)
    · exact absurd h (by decide)
  obtain ⟨_, hstate, _, _⟩ := (reconstruct_eq_iff hnot).mp hsame
  have hversion := congrArg (Option.map Prod.fst) hstate
  exact absurd hversion (by decide +kernel)

end Edon.Platform
