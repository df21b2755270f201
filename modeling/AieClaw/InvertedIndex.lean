import AieClaw.OrderedMap

/-!
# Inverted indexes

An inverted index maps a key to the identities that carry it, in the order in
which they were added. It is exact when the identities under a key are those
that carry the key, each once, and no key is kept for no identity.
-/

universe u v w

/-- The identities under each key. -/
abbrev InvertedIndex (Key : Type u) (Id : Type v) := OrderedMap Key (List Id)

namespace InvertedIndex

open OrderedMap List

variable {Key : Type u} {Id : Type v} [DecidableEq Key] [DecidableEq Id]

section

variable (index : InvertedIndex Key Id)

/-- The identities under a key. -/
def members (key : Key) : List Id := (index.get? key).getD []

def addKey (key : Key) (id : Id) : InvertedIndex Key Id :=
  index.set key
    (if id ∈ members index key then members index key
    else members index key ++ [id])

/-- Remove an identity from under a key, and the key with its last identity. -/
def deleteKey (key : Key) (id : Id) : InvertedIndex Key Id :=
  match index.get? key with
  | none => index
  | some ids =>
    let kept := ids.filter (· ≠ id)
    if kept = [] then index.delete key
    else index.set key kept

def addKeys (keys : List Key) (id : Id) : InvertedIndex Key Id :=
  keys.foldl (fun current key => addKey current key id) index

/-- Remove an identity from under each of some keys. -/
def deleteKeys (keys : List Key) (id : Id) : InvertedIndex Key Id :=
  keys.foldl (fun current key => deleteKey current key id) index

end

def build (entries : List (Id × List Key)) : InvertedIndex Key Id :=
  entries.foldl (fun current entry => addKeys current entry.2 entry.1) OrderedMap.empty

/-- The identities under each key are those that carry it. -/
structure Exact (index : InvertedIndex Key Id) (carries : Id → Key → Prop) : Prop where
  mem_iff : ∀ key id, id ∈ members index key ↔ carries id key
  nodup : ∀ key, (members index key).Nodup
  nonempty : ∀ key ids, index.get? key = some ids → ids ≠ []

section Members

omit [DecidableEq Id] in
@[simp] theorem members_empty (key : Key) :
    members (OrderedMap.empty : InvertedIndex Key Id) key = [] :=
  rfl

theorem members_addKey (index : InvertedIndex Key Id) (key other : Key) (id : Id) :
    members (addKey index key id) other =
      if other = key ∧ id ∉ members index key then members index other ++ [id]
      else
        members index other := by
  by_cases same : other = key
  · subst other
    by_cases present : id ∈ members index key
    · simp [members, addKey] at present ⊢
      simp [present]
    · have added : (addKey index key id).get? key = some (members index key ++ [id]) := by
        rw [addKey, if_neg present, get?_set_self]
      rw [members, added, if_pos ⟨rfl, present⟩, Option.getD_some]
  · have apart : (addKey index key id).get? other = index.get? other :=
      get?_set_of_ne same
    rw [members, apart, if_neg fun both => same both.1]
    rfl

theorem members_deleteKey (index : InvertedIndex Key Id) (key other : Key) (id : Id) :
    members (deleteKey index key id) other =
      if other = key then (members index other).filter (· ≠ id)
      else
        members index other := by
  unfold deleteKey
  cases found : index.get? key with
  | none =>
    by_cases same : other = key
    · simp [members, same, found]
    · simp [same]
  | some ids =>
    by_cases same : other = key
    · subst other
      by_cases empty : ids.filter (· ≠ id) = []
      · simp only [empty, if_true]
        rw [members, get?_delete_self, members, found, Option.getD_some, empty, Option.getD_none]
      · simp only [empty, if_false]
        simp [members, found]
    · by_cases empty : ids.filter (· ≠ id) = []
      · simp only [empty, if_true, if_neg same]
        simp [members, get?_delete_of_ne same]
      · simp only [empty, if_false, if_neg same]
        simp [members, get?_set_of_ne same]

end Members

namespace Exact

variable {index : InvertedIndex Key Id} {carries : Id → Key → Prop}

omit [DecidableEq Id] in
theorem empty (carriesNone : ∀ id key, ¬carries id key) :
    Exact (OrderedMap.empty : InvertedIndex Key Id) carries where
  mem_iff key id := by simpa using carriesNone id key
  nodup key := by simp
  nonempty key ids found := by simp at found

section

variable (exact : Exact index carries)
include exact

omit [DecidableEq Id] in
theorem congr {other : Id → Key → Prop}
    (same : ∀ id key, carries id key ↔ other id key) : Exact index other where
  mem_iff key id := (exact.mem_iff key id).trans (same id key)
  nodup := exact.nodup
  nonempty := exact.nonempty

/-- Adding an identity under a key. -/
theorem addKey (key : Key) (id : Id) : Exact (InvertedIndex.addKey index key id)
      fun someId someKey => carries someId someKey ∨ (someId = id ∧ someKey = key) where
  mem_iff other someId := by
    rw [members_addKey]
    split_ifs with added
    · rw [mem_append, exact.mem_iff, mem_singleton]
      simp [added.1]
    · rw [exact.mem_iff]
      constructor
      · exact Or.inl
      · rintro (already | ⟨rfl, rfl⟩)
        · exact already
        · have present : someId ∈ members index other := by
            by_contra absent
            exact added ⟨rfl, absent⟩
          exact (exact.mem_iff other someId).mp present
  nodup other := by
    rw [members_addKey]
    split_ifs with added
    · obtain ⟨rfl, absent⟩ := added
      exact nodup_append.mpr ⟨exact.nodup other, nodup_singleton id, by
          intro first inFirst second inSecond
          rw [mem_singleton.mp inSecond]
          rintro rfl
          exact absent inFirst⟩
    · exact exact.nodup other
  nonempty other ids found := by
    by_cases same : other = key
    · subst other
      rw [InvertedIndex.addKey, get?_set_self] at found
      cases found
      split_ifs with present
      · exact ne_nil_of_mem present
      · simp
    · rw [InvertedIndex.addKey, get?_set_of_ne same] at found
      exact exact.nonempty other ids found

/-- Removing an identity from under a key. -/
theorem deleteKey (key : Key) (id : Id) : Exact (InvertedIndex.deleteKey index key id)
      fun someId someKey => carries someId someKey ∧ ¬(someId = id ∧ someKey = key) where
  mem_iff other someId := by
    rw [members_deleteKey]
    split_ifs with same
    · subst other
      rw [mem_filter, exact.mem_iff]
      simp
    · rw [exact.mem_iff]
      simp [same]
  nodup other := by
    rw [members_deleteKey]
    split_ifs
    · exact (exact.nodup other).filter _
    · exact exact.nodup other
  nonempty other ids found := by
    unfold InvertedIndex.deleteKey at found
    cases stored : index.get? key with
    | none =>
      rw [stored] at found
      exact exact.nonempty other ids found
    | some before =>
      simp only [stored] at found
      split_ifs at found with gone
      · by_cases same : other = key
        · simp [same] at found
        · rw [get?_delete_of_ne same] at found
          exact exact.nonempty other ids found
      · by_cases same : other = key
        · subst other
          rw [get?_set_self] at found
          cases found
          exact gone
        · rw [get?_set_of_ne same] at found
          exact exact.nonempty other ids found

theorem addKeys (keys : List Key) (id : Id) :
    Exact (InvertedIndex.addKeys index keys id) fun someId someKey =>
        carries someId someKey ∨ (someId = id ∧ someKey ∈ keys) := by
  induction keys generalizing index carries with
  | nil => exact exact.congr fun _ _ => by simp
  | cons key rest inductionHypothesis =>
    exact (inductionHypothesis (exact.addKey key id)).congr fun _ _ => by
      simp only [mem_cons]
      tauto

theorem deleteKeys (keys : List Key) (id : Id) :
    Exact (InvertedIndex.deleteKeys index keys id) fun someId someKey =>
        carries someId someKey ∧ ¬(someId = id ∧ someKey ∈ keys) := by
  induction keys generalizing index carries with
  | nil => exact exact.congr fun _ _ => by simp
  | cons key rest inductionHypothesis =>
    exact (inductionHypothesis (exact.deleteKey key id)).congr fun _ _ => by
      simp only [mem_cons]
      tauto

private theorem foldl_addKeys (entries : List (Id × List Key)) : Exact
      (entries.foldl (fun current entry => InvertedIndex.addKeys current entry.2 entry.1) index)
      fun id key => carries id key ∨ ∃ entry ∈ entries, entry.1 = id ∧ key ∈ entry.2 := by
  induction entries generalizing index carries with
  | nil => exact exact.congr fun _ _ => by simp
  | cons entry rest inductionHypothesis =>
    exact (inductionHypothesis (exact.addKeys entry.2 entry.1)).congr fun id key => by
        simp only [mem_cons, exists_eq_or_imp]
        constructor
        · rintro ((old | ⟨rfl, inKeys⟩) | later)
          · exact Or.inl old
          · exact Or.inr (Or.inl ⟨rfl, inKeys⟩)
          · exact Or.inr (Or.inr later)
        · rintro (old | ⟨rfl, inKeys⟩ | later)
          · exact Or.inl (Or.inl old)
          · exact Or.inl (Or.inr ⟨rfl, inKeys⟩)
          · exact Or.inr later

end

theorem build (entries : List (Id × List Key)) : Exact (InvertedIndex.build entries)
      fun id key => ∃ entry ∈ entries, entry.1 = id ∧ key ∈ entry.2 :=
  have start : Exact (OrderedMap.empty : InvertedIndex Key Id) fun _ _ => False :=
    empty fun _ _ => id
  (foldl_addKeys start entries).congr fun _ _ => by simp

theorem moveKeys {other : Id → Key → Prop} (exact : Exact index carries)
    (before after : List Key) (id : Id) (owns : ∀ key, carries id key ↔ key ∈ before)
    (gains : ∀ key, other id key ↔ key ∈ after)
    (frame : ∀ someId key, someId ≠ id → (carries someId key ↔ other someId key)) : Exact
      (InvertedIndex.addKeys (InvertedIndex.deleteKeys index before id) after id)
      other :=
  ((exact.deleteKeys before id).addKeys after id).congr fun someId key => by
    by_cases same : someId = id
    · subst someId
      rw [gains, owns]
      simp
    · rw [← frame someId key same]
      simp [same]

end Exact

end InvertedIndex
