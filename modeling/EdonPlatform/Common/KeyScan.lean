import EdonPlatform.Common.PyValue

/- The recursive scan three boundaries make for keys a model's output must not carry: the
   path of every entry that fails one of the boundary's tests, at any depth. What it means
   for the scan to come back empty is stated once, for any tests and any way to write a
   path (`scan_eq_nil`). -/
namespace Edon

/-- `f"{prefix}.{key}" if prefix else key`. -/
def dottedPath (pre key : String) : String := if pre = "" then key else pre ++ "." ++ key

section
variable (tests : List (String → PyValue → Bool)) (path : String → String → String)

mutual
/-- `_forbidden_paths` and `_unsafe_paths`: an entry is reported once for every test it
fails. -/
def scan (pre : String) : PyValue → List String
  | .dict kvs => scanEntries pre kvs
  | .list xs => scanItems pre 0 xs
  | _ => []

def scanEntries (pre : String) : List (String × PyValue) → List String
  | [] => []
  | (key, child) :: kvs =>
    (tests.filter fun test => test key child).map (fun _ => path pre key) ++
      scan (path pre key) child ++ scanEntries pre kvs

def scanItems (pre : String) (i : Nat) : List PyValue → List String
  | [] => []
  | child :: xs => scan (pre ++ "[" ++ toString i ++ "]") child ++ scanItems pre (i + 1) xs
end

end

variable {tests : List (String → PyValue → Bool)} {path : String → String → String}

/-- An entry that no test reports. -/
def Passes (tests : List (String → PyValue → Bool)) (key : String) (child : PyValue) : Prop :=
  ∀ test ∈ tests, test key child = false

theorem scanEntries_eq_nil {kvs : List (String × PyValue)}
    (ih : ∀ e ∈ kvs, ∀ pre, scan tests path pre e.2 = [] ↔ e.2.Throughout (Passes tests))
    (pre : String) : scanEntries tests path pre kvs = [] ↔
      ∀ e ∈ kvs, Passes tests e.1 e.2 ∧ e.2.Throughout (Passes tests) := by
  induction kvs with
  | nil => simp [scanEntries]
  | cons e kvs ihl =>
    obtain ⟨key, child⟩ := e
    have hrest := ihl fun e he => ih e (List.mem_cons_of_mem _ he)
    have hchild := ih (key, child) List.mem_cons_self (path pre key)
    have hown : (tests.filter fun test => test key child).map (fun _ => path pre key) = [] ↔
        Passes tests key child := by
      simp [Passes, List.filter_eq_nil_iff]
    rw [scanEntries, List.append_eq_nil_iff, List.append_eq_nil_iff, hown, hchild, hrest,
      List.forall_mem_cons]

theorem scanItems_eq_nil {xs : List PyValue}
    (ih : ∀ x ∈ xs, ∀ pre, scan tests path pre x = [] ↔ x.Throughout (Passes tests))
    (pre : String) (i : Nat) : scanItems tests path pre i xs = [] ↔
      ∀ x ∈ xs, x.Throughout (Passes tests) := by
  induction xs generalizing i with
  | nil => simp [scanItems]
  | cons x xs ihl =>
    have hrest := ihl (fun y hy => ih y (List.mem_cons_of_mem _ hy)) (i + 1)
    rw [scanItems, List.append_eq_nil_iff, ih x List.mem_cons_self, hrest, List.forall_mem_cons]

/-- **The scan finds nothing exactly when no entry fails a test**, however deep it is. -/
theorem scan_eq_nil (pre : String) (v : PyValue) :
    scan tests path pre v = [] ↔ v.Throughout (Passes tests) := by
  induction v using PyValue.induct generalizing pre with
  | list xs ih =>
    rw [scan, scanItems_eq_nil ih, PyValue.throughout_list]
  | dict kvs ih =>
    rw [scan, scanEntries_eq_nil ih, PyValue.throughout_dict]
  | _ =>
    refine iff_of_true rfl ?_
    intro key child hw
    cases hw

/-- A check that raises when the scan found something. -/
theorem scan_checked {pre : String} {v : PyValue} {e : PyError} {u : Unit}
    (h : require (sortedSet (scan tests path pre v)).isEmpty e = .ok u) :
    v.Throughout (Passes tests) :=
  (scan_eq_nil pre v).mp (sortedSet_eq_nil.mp (List.isEmpty_iff.mp (require_ok.mp h)))

end Edon
