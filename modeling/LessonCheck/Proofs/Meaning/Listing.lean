import LessonCheck.Proofs.Meaning.Sites
import LessonCheck.Proofs.Unicode.ByteOrder
import Mathlib.Data.Finset.Card
import Mathlib.Data.Prod.Lex

/-!
The scope as a map from names to variables, and its listing. Of the declarations of a name the first
one is kept and the later ones are answered with it. The listing sorts by line and name, and as no
two entries have the same name, no two have the same place in that order; so it does not matter in
which order the entries come to be sorted, and of the declarations only the first of each name
count.
-/

namespace LessonCheck

namespace Variable

/-- What the place in a listing depends on: the line, and behind it the bytes of the name. -/
def rank (v : Variable) : ℕ ×ₗ List ℕ := toLex (v.line, Unicode.bytes v.name)

theorem le_iff {a b : Variable} : a.le b = true ↔ a.rank ≤ b.rank := by
  have hnames : ¬ b.name < a.name ↔ Unicode.bytes a.name ≤ Unicode.bytes b.name := by
    rw [not_lt, Unicode.strictMono_bytes.le_iff_le]
  simp only [le, rank, Prod.Lex.toLex_le_toLex, Bool.or_eq_true, Bool.and_eq_true,
    decide_eq_true_eq, beq_iff_eq, Bool.not_eq_true', decide_eq_false_iff_not, hnames]

theorem name_of_rank {a b : Variable} (h : a.rank = b.rank) : a.name = b.name :=
  Unicode.strictMono_bytes.injective (congrArg (fun r => (ofLex r).2) h)

end Variable

namespace Scope

variable {scope : Scope} {v w : Variable} {vs ws : List Variable} {n : String}

/-! ### Entries -/

theorem mem_entries_iff : v ∈ scope.entries ↔ scope.lookup? v.name = some v := by
  constructor
  · intro h
    obtain ⟨front, behind, hsplit⟩ := List.append_of_mem h
    have hdistinct := scope.distinct
    rw [hsplit, List.map_append, List.map_cons, List.nodup_append] at hdistinct
    refine List.find?_eq_some_iff_append.mpr ⟨beq_self_eq_true v.name, front, behind, hsplit, ?_⟩
    intro earlier hearlier
    have hname :=
      hdistinct.2.2 earlier.name (List.mem_map_of_mem hearlier) v.name List.mem_cons_self
    simpa using hname
  · exact List.mem_of_find?_eq_some

theorem eq_of_name (hv : v ∈ scope.entries) (hw : w ∈ scope.entries) (h : v.name = w.name) :
    v = w := by
  rw [mem_entries_iff] at hv hw
  rw [h, hw] at hv
  exact (Option.some.inj hv).symm

theorem nodup_entries (scope : Scope) : scope.entries.Nodup := scope.distinct.of_map _

/-- Scopes in which the same is found have the same entries. -/
theorem entries_perm {other : Scope} (h : ∀ n, scope.lookup? n = other.lookup? n) :
    scope.entries.Perm other.entries := by
  rw [List.perm_ext_iff_of_nodup scope.nodup_entries other.nodup_entries]
  intro v
  rw [mem_entries_iff, mem_entries_iff, h]

/-! ### The listing -/

theorem pairwise_mergeSort (entries : List Variable) :
    (entries.mergeSort Variable.le).Pairwise fun a b => a.rank ≤ b.rank := by
  have htrans (a b c : Variable) : a.le b = true → b.le c = true → a.le c = true := by
    simp only [Variable.le_iff]
    exact le_trans
  have htotal (a b : Variable) : (a.le b || b.le a) = true := by
    rw [Bool.or_eq_true, Variable.le_iff, Variable.le_iff]
    exact le_total _ _
  exact (List.pairwise_mergeSort htrans htotal entries).imp Variable.le_iff.mp

theorem mem_mergeSort_iff {order : List Variable} (h : order.Perm scope.entries) :
    v ∈ order.mergeSort Variable.le ↔ v ∈ scope.entries :=
  ((List.mergeSort_perm order Variable.le).trans h).mem_iff

/-- In whatever order the entries are sorted, the listing comes out. -/
theorem mergeSort_eq_listing {order : List Variable} (h : order.Perm scope.entries) :
    order.mergeSort Variable.le = scope.listing := by
  refine List.Perm.eq_of_pairwise ?_ (pairwise_mergeSort order)
    (pairwise_mergeSort scope.entries) ?_
  · intro a b ha hb hab hba
    exact eq_of_name ((mem_mergeSort_iff h).mp ha) ((mem_mergeSort_iff (List.Perm.refl _)).mp hb)
      (Variable.name_of_rank (le_antisymm hab hba))
  · exact ((List.mergeSort_perm order Variable.le).trans h).trans
      (List.mergeSort_perm scope.entries Variable.le).symm

theorem nodup_listing (scope : Scope) : scope.listing.Nodup :=
  (List.mergeSort_perm scope.entries Variable.le).nodup_iff.mpr scope.nodup_entries

theorem pairwise_listing (scope : Scope) : scope.listing.Pairwise fun a b => a.rank < b.rank := by
  have hle := pairwise_mergeSort scope.entries
  refine (hle.and scope.nodup_listing).imp_of_mem fun {a b} ha hb hab => ?_
  refine lt_of_le_of_ne hab.1 fun hrank => hab.2 ?_
  have hmem {v : Variable} := mem_mergeSort_iff (v := v) (List.Perm.refl scope.entries)
  exact eq_of_name (hmem.mp ha) (hmem.mp hb) (Variable.name_of_rank hrank)

/-! ### Declarations one after the other -/

/-- Declares the variables in order; a declaration that is rejected changes nothing. -/
def declareEach (scope : Scope) : List Variable → Scope
  | [] => scope
  | v :: vs =>
    match scope.declare v with
    | .ok larger => larger.declareEach vs
    | .error _ => scope.declareEach vs

theorem declare_of_some (h : scope.lookup? v.name = some w) : scope.declare v = .error w := by
  unfold declare
  split
  · next existing hexisting =>
      rw [h] at hexisting
      rw [Option.some.inj hexisting]
  · next hfree =>
      rw [h] at hfree
      cases hfree

theorem declare_of_none (h : scope.lookup? v.name = none) :
    scope.declare v = .ok (scope.add v h) := by
  unfold declare
  split
  · next existing hexisting =>
      rw [h] at hexisting
      cases hexisting
  · rfl

theorem declare_eq_error_iff : scope.declare v = .error w ↔ scope.lookup? v.name = some w := by
  refine ⟨fun h => ?_, declare_of_some⟩
  cases hv : scope.lookup? v.name with
  | none => simp [declare_of_none hv] at h
  | some existing => simpa [declare_of_some hv] using h

theorem declareEach_cons_of_some (h : scope.lookup? v.name = some w) :
    scope.declareEach (v :: vs) = scope.declareEach vs := by
  rw [declareEach, declare_of_some h]

theorem declareEach_cons_of_none (h : scope.lookup? v.name = none) :
    scope.declareEach (v :: vs) = (scope.add v h).declareEach vs := by
  rw [declareEach, declare_of_none h]

/-- What is known stays known, and the first declaration of any other name becomes its entry. -/
theorem lookup?_declareEach :
    (scope.declareEach vs).lookup? n = (scope.lookup? n).or (vs.find? (·.name == n)) := by
  induction vs generalizing scope with
  | nil => exact Option.or_none.symm
  | cons v vs ih =>
      cases hv : scope.lookup? v.name with
      | some existing =>
          rw [declareEach_cons_of_some hv, ih, List.find?_cons]
          by_cases hname : v.name = n
          · rw [← hname, hv, Option.some_or, Option.some_or]
          · rw [beq_false_of_ne hname]
      | none =>
          -- The new entry stands behind what was known and in front of what is declared later.
          rw [declareEach_cons_of_none hv, ih, lookup?_add, Option.or_assoc, List.find?_cons]
          by_cases hname : v.name = n
          · rw [if_pos hname, Option.some_or, beq_iff_eq.mpr hname]
          · rw [if_neg hname, Option.none_or, beq_false_of_ne hname]

theorem lookup?_declareEach_empty : (empty.declareEach vs).lookup? n = vs.find? (·.name == n) :=
  lookup?_declareEach.trans Option.none_or

theorem size_eq_card (scope : Scope) : scope.size = (scope.entries.map (·.name)).toFinset.card := by
  rw [List.toFinset_card_of_nodup scope.distinct, List.length_map, size]

/-- What the scope has become after the declarations `vs`, with nothing known before. -/
structure HoldsFirst (vs : List Variable) (scope : Scope) : Prop where
  /-- An entry is the first variable that was declared with its name. -/
  entry (v : Variable) : v ∈ scope.entries ↔ vs.find? (·.name == v.name) = some v
  lookup (n : String) : scope.lookup? n = vs.find? (·.name == n)
  rejected (v first : Variable) :
    scope.declare v = .error first ↔ vs.find? (·.name == v.name) = some first
  unchanged (v first : Variable) : scope.declare v = .error first → scope.declareEach [v] = scope
  size : scope.size = (vs.map (·.name)).toFinset.card
  increasing : scope.listing.Pairwise fun a b => a.rank < b.rank
  once (v : Variable) : scope.listing.count v = if v ∈ scope.entries then 1 else 0
  anyOrder (order : List Variable) :
    order.Perm scope.entries → order.mergeSort Variable.le = scope.listing
  /-- Other declarations lead to the same listing if the first of each name is the same. -/
  sameFirst (ws : List Variable) : (∀ n, ws.find? (·.name == n) = vs.find? (·.name == n)) →
    (empty.declareEach ws).listing = scope.listing

/-- The scope keeps the first declaration of every name, and its listing depends on nothing else. -/
theorem holdsFirst_declareEach (vs : List Variable) : HoldsFirst vs (empty.declareEach vs) where
  entry v := by rw [mem_entries_iff, lookup?_declareEach_empty]
  lookup n := lookup?_declareEach_empty
  rejected v first := by rw [declare_eq_error_iff, lookup?_declareEach_empty]
  unchanged v first h := by
    rw [declareEach_cons_of_some (declare_eq_error_iff.mp h), declareEach]
  size := by
    rw [size_eq_card]
    congr 1
    ext n
    rw [List.mem_toFinset, List.mem_toFinset, ← not_iff_not, ← lookup?_eq_none_iff,
      lookup?_declareEach_empty]
    simp
  increasing := pairwise_listing _
  once v := by
    rw [listing, (List.mergeSort_perm _ _).count_eq, (nodup_entries _).count]
  anyOrder order h := mergeSort_eq_listing h
  sameFirst ws h := by
    have hlookup (n : String) :
        (empty.declareEach ws).lookup? n = (empty.declareEach vs).lookup? n := by
      rw [lookup?_declareEach_empty, lookup?_declareEach_empty, h]
    exact mergeSort_eq_listing (entries_perm hlookup)

end Scope

end LessonCheck
