import FilterQuery.Proofs.Comparison
import FilterQuery.Proofs.PermanentLock
import FilterQuery.Proofs.Refusal
import Mathlib.Data.List.Sort

/-!
# Stable order by a field

A collection is sorted by the values that its records have in a field. Main statement: if doubles
and integers beyond 2^53 do not come together among these values, sorting puts the same records
into ascending or descending order and leaves records with equal values as they follow each other;
and a collection that is locked, or has a record without the field, is left as it is.

Placing records one after another is insertion sort from the back, so what the library knows of
that sort carries over. Its order is total and transitive on the values at hand only, and no
integers meet among them.
-/

namespace List

variable {α : Type} {r : α → α → Prop} [DecidableRel r] {l : List α}

/-- Insertion sort needs a total and transitive order on the items of the list alone. -/
theorem pairwise_insertionSort_of_mem (total : ∀ a ∈ l, ∀ b ∈ l, r a b ∨ r b a)
    (trans : ∀ a ∈ l, ∀ b ∈ l, ∀ c ∈ l, r a b → r b c → r a c) :
    (l.insertionSort r).Pairwise r := by
  let within (a b : { a // a ∈ l }) : Prop := r a b
  have : DecidableRel within := fun a b => inferInstanceAs (Decidable (r a b))
  have : Std.Total within := ⟨fun a b => total a a.2 b b.2⟩
  have : IsTrans _ within := ⟨fun a b c => trans a a.2 b b.2 c c.2⟩
  have sorted : (l.attach.insertionSort within).map Subtype.val = l.insertionSort r := by
    rw [map_insertionSort within r _ _ fun _ _ _ _ => Iff.rfl, attach_map_subtype_val]
  rw [← sorted, pairwise_map]
  exact pairwise_insertionSort within _

/-- Items that all stand in order already keep their places among themselves. -/
theorem filter_insertionSort {q : α → Bool} (h : (l.filter q).Pairwise r) :
    (l.insertionSort r).filter q = l.filter q := by
  have kept : l.filter q <+ l.insertionSort r := sublist_insertionSort h filter_sublist
  have within : l.filter q <+ (l.insertionSort r).filter q := by
    simpa using kept.filter q
  exact (within.eq_of_length ((perm_insertionSort r l).filter q).length_eq.symm).symm

end List

namespace FilterQuery

/-- Values among which comparison is a total preorder: beside a double, integers are small. -/
def Value.Comparable (values : List Value) : Prop :=
  ∀ i x, .int i ∈ values → .float x ∈ values → i.toInt.natAbs ≤ 2 ^ 53

namespace Value.Comparable

variable {values : List Value} {a b c : Value}

/-- Among values that can be compared no three are such that comparison is not transitive. -/
theorem not_meet (h : Comparable values) (ha : a ∈ values) (hb : b ∈ values) (hc : c ∈ values) :
    ¬ Meet a b c := by
  intro meet
  obtain ⟨i, which, large⟩ := meet.exists_large
  obtain ⟨-, x, -, -, rfl, -⟩ := meet
  have small : i.toInt.natAbs ≤ 2 ^ 53 := by
    rcases which with rfl | rfl
    · exact h i x ha hb
    · exact h i x hc hb
  omega

theorem isLE_trans (h : Comparable values) (ha : a ∈ values) (hb : b ∈ values) (hc : c ∈ values)
    (first : (a.compare b).isLE) (second : (b.compare c).isLE) : (a.compare c).isLE := by
  rw [Ordering.isLE_iff_ne_gt]
  exact fun wrong => h.not_meet ha hb hc (meet_of_not_isLE first second wrong)

theorem eq_trans (h : Comparable values) (ha : a ∈ values) (hb : b ∈ values) (hc : c ∈ values)
    (first : a.compare b = .eq) (second : b.compare c = .eq) : a.compare c = .eq := by
  by_contra wrong
  exact h.not_meet ha hb hc (meet_of_ne_eq first second wrong)

end Value.Comparable

namespace Collection

variable {α : Type}

/-- Placing an entry puts it after those that it does not precede. -/
theorem place_eq_orderedInsert (precedes : Value → Value → Bool) (entry : Value × α)
    (sorted : List (Value × α)) : place precedes entry sorted =
      sorted.orderedInsert (fun a b => precedes a.1 b.1 = false) entry := by
  induction sorted with
  | nil => rfl
  | cons other rest ih =>
    cases h : precedes entry.1 other.1 <;> simp [place, h, ih]

/-- Sorting by placing one entry after another is insertion sort from the back. -/
theorem sortByKey_eq (precedes : Value → Value → Bool) (entries : List (Value × α)) :
    sortByKey precedes entries =
      (entries.reverse.insertionSort fun a b => precedes a.1 b.1 = false).reverse := by
  rw [sortByKey, ← List.foldr_reverse]
  congr 1
  induction entries.reverse with
  | nil => rfl
  | cons entry rest ih => rw [List.foldr_cons, ih, place_eq_orderedInsert]; rfl

variable [Record α] {c : Collection α} {reverse : Bool} {field : String}

/-- The value that a record is sorted by, if it has the field. -/
def key (field : String) (element : α) : Value := (Record.field? element field).getD .null

theorem key_of_field? {element : α} {value : Value} (h : Record.field? element field = some value) :
    key field element = value := by
  rw [key, h]
  rfl

theorem field?_eq_key {element : α} (has : (Record.field? element field).isSome) :
    Record.field? element field = some (key field element) := by
  obtain ⟨value, h⟩ := Option.isSome_iff_exists.mp has
  rw [h, key_of_field? h]

theorem mapM_readField {elements : List α}
    (all : ∀ a ∈ elements, (Record.field? a field).isSome) :
    elements.mapM (fun a => Record.readField a field) = .ok (elements.map (key field)) := by
  refine Except.mapM_eq_ok.mpr (List.forall₂_map_right_iff.mpr (List.forall₂_same.mpr ?_))
  intro a ha
  rw [Record.readField, field?_eq_key (all a ha)]

/-- The records in the order of their keys, sorted by insertion from the back. -/
def arrange (reverse : Bool) (field : String) (elements : List α) : List α :=
  (elements.reverse.insertionSort fun a b =>
    precedes reverse (key field a) (key field b) = false).reverse

theorem perm_arrange (reverse : Bool) (field : String) (elements : List α) :
    (arrange reverse field elements).Perm elements :=
  (List.reverse_perm _).trans ((List.perm_insertionSort _ _).trans (List.reverse_perm _))

/-- Sorting records beside their keys is sorting them by their keys. -/
theorem map_snd_sortByKey (reverse : Bool) (elements : List α) :
    (sortByKey (precedes reverse) ((elements.map (key field)).zip elements)).map Prod.snd =
      arrange reverse field elements := by
  have entries : (elements.map (key field)).zip elements =
      elements.map fun a => (key field a, a) := by
    rw [List.zip, List.zipWith_map_left, List.zipWith_self]
  rw [entries, sortByKey_eq, ← List.map_reverse,
    ← List.map_insertionSort (fun a b => precedes reverse (key field a) (key field b) = false) _ _ _
      fun _ _ _ _ => Iff.rfl,
    List.map_reverse, List.map_map]
  exact congrArg List.reverse (List.map_id _)

/-- Without a lock, and with the field in every record, the collection is sorted and its draws are
forgotten. -/
theorem reindex_eq (unlocked : c.locked = false)
    (all : ∀ a ∈ c.elements, (Record.field? a field).isSome) :
    c.reindex reverse field =
      .ok { c with elements := arrange reverse field c.elements, drawn := [] } := by
  rw [reindex, ensureUnlocked, unlocked, mapM_readField all, ← map_snd_sortByKey]
  rfl

/-- A record may stand before another if their values in the field do. -/
def InOrder (reverse : Bool) (field : String) (a b : α) : Prop :=
  ∀ v w, Record.field? a field = some v → Record.field? b field = some w →
    v.compare w ≠ if reverse then .lt else .gt

def sameKey (field : String) (a b : α) : Bool :=
  match Record.field? a field, Record.field? b field with
  | some v, some w => v.compare w == .eq
  | _, _ => false

/-- The same records in the order of a field, those with equal values as they were. -/
structure StablySorted (reverse : Bool) (field : String) (before after : List α) : Prop where
  perm : after.Perm before
  ordered : after.Pairwise (InOrder reverse field)
  stable : ∀ a ∈ before, after.filter (sameKey field a) = before.filter (sameKey field a)

theorem sameKey_iff {a b : α} (ha : (Record.field? a field).isSome)
    (hb : (Record.field? b field).isSome) :
    sameKey field a b ↔ (key field a).compare (key field b) = .eq := by
  rw [sameKey, field?_eq_key ha, field?_eq_key hb]
  exact beq_iff_eq

/-- A value does not precede another if the other may stand before it. -/
theorem precedes_eq_false {v w : Value} :
    precedes reverse v w = false ↔ (if reverse then v.compare w else w.compare v).isLE := by
  rw [Value.compare_swap v w]
  cases reverse <;> cases order : v.compare w <;> simp [precedes, order]

theorem precedes_total (reverse : Bool) (v w : Value) :
    precedes reverse v w = false ∨ precedes reverse w v = false := by
  rw [precedes_eq_false, precedes_eq_false, Value.compare_swap v w]
  cases reverse <;> cases v.compare w <;> simp

theorem inOrder_of_precedes {a b : α} (h : precedes reverse (key field b) (key field a) = false) :
    InOrder reverse field a b := by
  intro v w hv hw
  rw [key_of_field? hv, key_of_field? hw, precedes_eq_false, Value.compare_swap v w] at h
  cases reverse <;> cases order : v.compare w <;> simp_all

section Sorting

variable {elements : List α} (all : ∀ a ∈ elements, (Record.field? a field).isSome)
  (comparable : Value.Comparable (elements.filterMap (Record.field? · field)))

include all

theorem key_mem {a : α} (ha : a ∈ elements) :
    key field a ∈ elements.filterMap (Record.field? · field) :=
  List.mem_filterMap.mpr ⟨a, ha, field?_eq_key (all a ha)⟩

include comparable

theorem precedes_trans {a b d : α} (ha : a ∈ elements) (hb : b ∈ elements) (hd : d ∈ elements)
    (first : precedes reverse (key field a) (key field b) = false)
    (second : precedes reverse (key field b) (key field d) = false) :
    precedes reverse (key field a) (key field d) = false := by
  rw [precedes_eq_false] at first second ⊢
  have ha := key_mem all ha
  have hb := key_mem all hb
  have hd := key_mem all hd
  cases reverse with
  | true => exact comparable.isLE_trans ha hb hd first second
  | false => exact comparable.isLE_trans hd hb ha second first

/-- Of two records with the same key none precedes the other. -/
theorem precedes_of_sameKey {a b d : α} (ha : a ∈ elements) (hb : b ∈ elements) (hd : d ∈ elements)
    (first : sameKey field a b) (second : sameKey field a d) :
    precedes reverse (key field b) (key field d) = false := by
  rw [sameKey_iff (all a ha) (all b hb)] at first
  rw [sameKey_iff (all a ha) (all d hd)] at second
  have back : (key field b).compare (key field a) = .eq := by
    rw [Value.compare_swap, first]
    rfl
  have same := comparable.eq_trans (key_mem all hb) (key_mem all ha) (key_mem all hd) back second
  cases reverse <;> simp [precedes, same]

/-- Sorting is stable where the values can be compared. -/
theorem stablySorted_arrange (reverse : Bool) :
    StablySorted reverse field elements (arrange reverse field elements) where
  perm := perm_arrange reverse field elements
  ordered := by
    rw [arrange, List.pairwise_reverse]
    refine (List.pairwise_insertionSort_of_mem ?_ ?_).imp inOrder_of_precedes
    · exact fun a _ b _ => precedes_total reverse (key field a) (key field b)
    · simp only [List.mem_reverse]
      exact fun a ha b hb d hd => precedes_trans all comparable ha hb hd
  stable a ha := by
    have placed : (elements.reverse.filter (sameKey field a)).Pairwise fun b d =>
        precedes reverse (key field b) (key field d) = false := by
      refine List.pairwise_of_forall_mem_list fun b hb d hd => ?_
      rw [List.mem_filter, List.mem_reverse] at hb hd
      exact precedes_of_sameKey all comparable ha hb.1 hd.1 hb.2 hd.2
    rw [arrange, List.filter_reverse, List.filter_insertionSort placed, List.filter_reverse,
      List.reverse_reverse]

end Sorting

theorem sameKey_self {a : α} (has : (Record.field? a field).isSome) : sameKey field a a := by
  have same := Value.compare_swap (key field a) (key field a)
  rw [sameKey_iff has has]
  cases order : (key field a).compare (key field a) <;> simp_all

/-- Records that may stand either way round have the same key. -/
theorem sameKey_of_inOrder {a b : α} (ha : (Record.field? a field).isSome)
    (hb : (Record.field? b field).isSome) (first : InOrder reverse field a b)
    (second : InOrder reverse field b a) : sameKey field a b := by
  have first := first _ _ (field?_eq_key ha) (field?_eq_key hb)
  have second := second _ _ (field?_eq_key hb) (field?_eq_key ha)
  rw [Value.compare_swap (key field a)] at second
  rw [sameKey_iff ha hb]
  cases reverse <;> cases order : (key field a).compare (key field b) <;> simp_all

/-- Lists in order with the same records under every key are equal: their first records have the
same key, so they are the first under that key in both. -/
theorem eq_of_inOrder {first second : List α}
    (all : ∀ a ∈ first, (Record.field? a field).isSome) (perm : first.Perm second)
    (inOrder : first.Pairwise (InOrder reverse field))
    (inOrder' : second.Pairwise (InOrder reverse field))
    (stable : ∀ a ∈ first, first.filter (sameKey field a) = second.filter (sameKey field a)) :
    first = second := by
  induction first generalizing second with
  | nil => exact perm.nil_eq
  | cons a rest ih =>
    cases second with
    | nil => exact perm.eq_nil
    | cons b rest' =>
      have ha := all a List.mem_cons_self
      have hb := all b (perm.mem_iff.mpr List.mem_cons_self)
      rw [List.pairwise_cons] at inOrder inOrder'
      have same : sameKey field a b := by
        rcases List.mem_cons.mp (perm.mem_iff.mpr List.mem_cons_self : b ∈ a :: rest) with rfl | hb'
        · exact sameKey_self hb
        · rcases List.mem_cons.mp (perm.mem_iff.mp List.mem_cons_self : a ∈ b :: rest') with
            rfl | ha'
          · exact sameKey_self ha
          · exact sameKey_of_inOrder ha hb (inOrder.1 b hb') (inOrder'.1 a ha')
      have heads := stable a List.mem_cons_self
      rw [List.filter_cons_of_pos (sameKey_self ha), List.filter_cons_of_pos same] at heads
      obtain rfl := (List.cons.inj heads).1
      rw [List.forall_mem_cons] at all
      refine congrArg _ (ih all.2 perm.cons_inv inOrder.2 inOrder'.2 fun d hd => ?_)
      have stable := stable d (List.mem_cons_of_mem a hd)
      simp only [List.filter_cons] at stable
      split at stable
      · exact (List.cons.inj stable).2
      · exact stable

/-- There is one way only to sort stably. -/
theorem StablySorted.unique {before first second : List α}
    (all : ∀ a ∈ before, (Record.field? a field).isSome)
    (h : StablySorted reverse field before first) (h' : StablySorted reverse field before second) :
    first = second := by
  refine eq_of_inOrder (fun a ha => all a (h.perm.mem_iff.mp ha)) (h.perm.trans h'.perm.symm)
    h.ordered h'.ordered fun a ha => ?_
  have ha := h.perm.mem_iff.mp ha
  rw [h.stable a ha, h'.stable a ha]

/-- The first record without the field is the one that is named in the refusal. -/
theorem reindex_of_missing (unlocked : c.locked = false) {a : α}
    (first : ReachedIn (fun b => (Record.field? b field).isSome) c.elements a)
    (missing : Record.field? a field = none) :
    c.reindex reverse field = .error (.unknownField (recordType a) field) := by
  have refused : c.elements.mapM (fun b => Record.readField b field) =
      .error (.unknownField (recordType a) field) := by
    obtain ⟨before, after, cut, all⟩ := first
    refine Except.mapM_eq_error.mpr
      ⟨a, ⟨before, after, cut, fun b hb => ⟨key field b, ?_⟩⟩, by rw [Record.readField, missing]⟩
    rw [Record.readField, field?_eq_key (all b hb)]
  rw [reindex, ensureUnlocked, unlocked, refused]
  rfl

/-- Where the field is missing at all, it is missing somewhere first. -/
theorem exists_first_missing {elements : List α}
    (missing : ∃ a ∈ elements, Record.field? a field = none) :
    ∃ a, ReachedIn (fun b => (Record.field? b field).isSome) elements a ∧
      Record.field? a field = none := by
  have bad : ∃ a ∈ elements, ¬ (Record.field? a field).isSome := by simpa using missing
  simpa using exists_reachedIn bad

/-- A collection that could be sorted has the same records in some order. -/
theorem exists_perm_of_reindex {next : Collection α} (h : c.reindex reverse field = .ok next) :
    ∃ elements, elements.Perm c.elements ∧ next = { c with elements, drawn := [] } := by
  have unlocked : c.locked = false := by
    by_contra locked
    rw [reindex, ensureUnlocked, if_pos (by simpa using locked)] at h
    cases h
  have all : ∀ a ∈ c.elements, (Record.field? a field).isSome := by
    by_contra some_missing
    obtain ⟨a, first, missing⟩ := exists_first_missing (by simpa using some_missing)
    rw [reindex_of_missing unlocked first missing] at h
    cases h
  rw [reindex_eq unlocked all] at h
  exact ⟨_, perm_arrange reverse field c.elements, (Except.ok.inj h).symm⟩

/-- Sorting by a field is stable, or it is refused and changes nothing. -/
theorem reindex_stable_or_refused (c : Collection α) (reverse : Bool) (field : String) :
    (c.locked = false → (∀ a ∈ c.elements, (Record.field? a field).isSome) →
      Value.Comparable (c.elements.filterMap (Record.field? · field)) →
      ∃ elements, StablySorted reverse field c.elements elements ∧
        (∀ other, StablySorted reverse field c.elements other → other = elements) ∧
        c.perform (.reindex reverse field) = (.ok none, { c with elements, drawn := [] })) ∧
    (c.locked = true → c.perform (.reindex reverse field) = (.error .locked, c)) ∧
    (c.locked = false → (∃ a ∈ c.elements, Record.field? a field = none) →
      ∃ a, ReachedIn (fun b => (Record.field? b field).isSome) c.elements a ∧
        Record.field? a field = none ∧
        c.perform (.reindex reverse field) = (.error (.unknownField (recordType a) field), c)) := by
  refine ⟨?_, ?_, ?_⟩
  · intro unlocked all comparable
    have sorted := stablySorted_arrange all comparable reverse
    refine ⟨_, sorted, fun other h => h.unique all sorted, ?_⟩
    rw [perform, reindex_eq unlocked all]
    rfl
  · intro locked
    exact perform_of_isStructural locked rfl
  · intro unlocked missing
    obtain ⟨a, first, none⟩ := exists_first_missing missing
    refine ⟨a, first, none, ?_⟩
    rw [perform, reindex_of_missing unlocked first none]
    rfl

/-- In descending order NaN comes before all numbers, and of two equal numbers of different kinds
the one that stood first. A lock and a record without the field stand in the way. -/
theorem reindex_stable_or_refused_sample :
    let record (id : Int64) (value : Value) : Entity := ⟨"r", [("id", id), ("k", value)], []⟩
    let c : Collection Entity :=
      { elements := [record 1 (.int 0), record 2 (.float ⟨0x8000000000000000⟩),
          record 3 (.text "a"), record 4 (.float ⟨0x7FF8000000000000⟩),
          record 5 (.float ⟨0x4340000000000000⟩), record 6 (.int 9007199254740992)]
        elementType := some "r"
        drawn := [2, 0] }
    let incomplete : Collection Entity := { elements := [record 1 .null, ⟨"s", [], []⟩] }
    c.locked = false ∧ (∀ a ∈ c.elements, (Record.field? a "k").isSome) ∧
      Value.Comparable (c.elements.filterMap (Record.field? · "k")) ∧
      ∃ elements, StablySorted true "k" c.elements elements ∧
        c.perform (.reindex true "k") = (.ok none, { c with elements, drawn := [] }) ∧
        elements.map (Record.field? · "id") =
          [some (.int 3), some (.int 4), some (.int 5), some (.int 6), some (.int 1),
            some (.int 2)] ∧
        (c.lock true).perform (.reindex true "k") = (.error .locked, c.lock true) ∧
        ∃ a, ReachedIn (fun b => (Record.field? b "k").isSome) incomplete.elements a ∧
          Record.field? a "k" = none ∧ incomplete.perform (.reindex false "k") =
            (.error (.unknownField (recordType a) "k"), incomplete) := by
  intro record c incomplete
  have all : ∀ a ∈ c.elements, (Record.field? a "k").isSome := by decide
  have comparable : Value.Comparable (c.elements.filterMap (Record.field? · "k")) := by
    intro i x hi _
    have which : i = 0 ∨ i = 9007199254740992 := by
      simpa [c, record, Record.field?, Entity.find?] using hi
    rcases which with rfl | rfl <;> decide
  obtain ⟨elements, sorted, -, done⟩ :=
    (reindex_stable_or_refused c true "k").1 rfl all comparable
  have missing : ∃ a ∈ incomplete.elements, Record.field? a "k" = none :=
    ⟨⟨"s", [], []⟩, by decide, rfl⟩
  have locked := (reindex_stable_or_refused (c.lock true) true "k").2.1 rfl
  have refused := (reindex_stable_or_refused incomplete false "k").2.2 rfl missing
  refine ⟨rfl, all, comparable, elements, sorted, done, ?_, locked, refused⟩
  have same : elements = (c.perform (.reindex true "k")).2.elements := by rw [done]
  rw [same]
  decide +kernel

end Collection

end FilterQuery
