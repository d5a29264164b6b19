import Mathlib.Data.List.Basic

/-!
# Hash tables with a key equality of their own

A table is the list of its entries.  A lookup searches only the bucket of its
key, and which bucket that is depends on the hash.  So it finds what a search of
the whole table finds if equal keys have equal hashes, whatever the hash does
and however the buckets are laid out at the time.
-/

namespace KZEvent
namespace Foundation

variable {Key Value Hash : Type*}

/-- An equality of keys that is symmetric and transitive. -/
structure KeyEquiv (eq : Key → Key → Bool) : Prop where
  symm : ∀ left right, eq left right = true → eq right left = true
  trans : ∀ left middle right, eq left middle = true → eq middle right = true →
    eq left right = true

/-- What a table relies on: such an equality, and a hash that does not tell
equal keys apart. -/
structure KeyLaws (eq : Key → Key → Bool) (hash : Key → Hash) : Prop
    extends KeyEquiv eq where
  hash_eq : ∀ left right, eq left right = true → hash left = hash right

namespace HashTable

/-- The first entry with an equal key. -/
def lookup (eq : Key → Key → Bool) (entries : List (Key × Value)) (key : Key) :
    Option (Key × Value) :=
  entries.find? fun entry => eq entry.1 key

/-- The first entry in the bucket of `key` with an equal key. -/
def find (eq : Key → Key → Bool) (hash : Key → Hash) (bucketOf : Hash → Nat)
    (entries : List (Key × Value)) (key : Key) : Option (Key × Value) :=
  entries.find? fun entry =>
    bucketOf (hash entry.1) == bucketOf (hash key) && eq entry.1 key

/-- No two entries have equal keys. -/
def Distinct (eq : Key → Key → Bool) (entries : List (Key × Value)) : Prop :=
  entries.Pairwise fun left right => eq left.1 right.1 = false

variable {eq : Key → Key → Bool} {hash : Key → Hash}
  {entries : List (Key × Value)} {key : Key} {entry : Key × Value}

/-- Searching one bucket is searching the table. -/
theorem find_eq_lookup (hLaws : KeyLaws eq hash) (bucketOf : Hash → Nat)
    (entries : List (Key × Value)) (key : Key) :
    find eq hash bucketOf entries key = lookup eq entries key := by
  unfold find lookup
  congr 1
  funext entry
  cases hEq : eq entry.1 key with
  | true => simp [hLaws.hash_eq _ _ hEq]
  | false => simp

theorem lookup_eq_none_iff :
    lookup eq entries key = none ↔ ∀ entry ∈ entries, eq entry.1 key = false := by
  simp [lookup]

theorem mem_of_lookup (hLookup : lookup eq entries key = some entry) :
    entry ∈ entries ∧ eq entry.1 key = true := by
  have hFound : entries.find? (fun entry => eq entry.1 key) = some entry :=
    hLookup
  have hEq := List.find?_some hFound
  exact ⟨List.mem_of_find?_eq_some hFound, hEq⟩

/-- In a table with distinct keys, an entry with an equal key is the one that is
found. -/
theorem lookup_eq_some_iff (hEquiv : KeyEquiv eq)
    (hDistinct : Distinct eq entries) :
    lookup eq entries key = some entry ↔
      entry ∈ entries ∧ eq entry.1 key = true := by
  refine ⟨mem_of_lookup, ?_⟩
  rintro ⟨hMem, hEq⟩
  induction entries with
  | nil => cases hMem
  | cons first rest ih =>
      obtain ⟨hFirst, hRest⟩ := List.pairwise_cons.mp hDistinct
      rw [lookup, List.find?_cons]
      rcases List.mem_cons.mp hMem with rfl | hLater
      · rw [hEq]
      · -- An equal key in front would be equal to the entry's.
        have hOther : eq first.1 key = false := by
          by_contra hSame
          rw [Bool.not_eq_false] at hSame
          have hBoth := hEquiv.trans _ _ _ hSame (hEquiv.symm _ _ hEq)
          rw [hFirst entry hLater] at hBoth
          cases hBoth
        rw [hOther]
        exact ih hRest hLater

/-- Equal keys find the same entry. -/
theorem lookup_congr (hEquiv : KeyEquiv eq) {other : Key}
    (hEq : eq key other = true) :
    lookup eq entries key = lookup eq entries other := by
  unfold lookup
  congr 1
  funext entry
  rw [Bool.eq_iff_iff]
  exact ⟨fun hEntry => hEquiv.trans _ _ _ hEntry hEq,
    fun hEntry => hEquiv.trans _ _ _ hEntry (hEquiv.symm _ _ hEq)⟩

/-- A new entry is found where nothing was found before. -/
theorem lookup_append (eq : Key → Key → Bool) (entries : List (Key × Value))
    (key : Key) (value : Value) (other : Key) :
    lookup eq (entries ++ [(key, value)]) other =
      (lookup eq entries other).or
        (if eq key other then some (key, value) else none) := by
  simp only [lookup, List.find?_append]
  cases hEq : eq key other <;> simp [hEq]

/-- Changing the values changes what is found and not where. -/
theorem lookup_map (eq : Key → Key → Bool) (entries : List (Key × Value))
    (change : Value → Value) (other : Key) :
    lookup eq (entries.map fun entry => (entry.1, change entry.2)) other =
      (lookup eq entries other).map fun entry => (entry.1, change entry.2) := by
  rw [lookup, List.find?_map]
  rfl

/-- In a table with distinct keys, what is found among the entries kept is what
was found before, if it was kept. -/
theorem lookup_filter (hEquiv : KeyEquiv eq) (hDistinct : Distinct eq entries)
    (keep : Key × Value → Bool) (other : Key) :
    lookup eq (entries.filter keep) other =
      (lookup eq entries other).filter keep := by
  apply Option.ext
  intro found
  have hKept : Distinct eq (entries.filter keep) :=
    List.Pairwise.filter keep hDistinct
  rw [lookup_eq_some_iff hEquiv hKept, Option.filter_eq_some_iff,
    lookup_eq_some_iff hEquiv hDistinct, List.mem_filter]
  exact ⟨fun ⟨⟨hMem, hKeep⟩, hEq⟩ => ⟨⟨hMem, hEq⟩, hKeep⟩,
    fun ⟨⟨hMem, hEq⟩, hKeep⟩ => ⟨⟨hMem, hKeep⟩, hEq⟩⟩

/-- An entry is added where no equal key was found. -/
theorem Distinct.append (hDistinct : Distinct eq entries)
    (hNone : lookup eq entries key = none) (value : Value) :
    Distinct eq (entries ++ [(key, value)]) := by
  rw [lookup_eq_none_iff] at hNone
  refine List.pairwise_append.mpr ⟨hDistinct, List.pairwise_singleton _ _, ?_⟩
  intro entry hEntry added hAdded
  obtain rfl := List.mem_singleton.mp hAdded
  exact hNone entry hEntry

theorem Distinct.map (hDistinct : Distinct eq entries) (change : Value → Value) :
    Distinct eq (entries.map fun entry => (entry.1, change entry.2)) :=
  List.pairwise_map.mpr hDistinct

theorem Distinct.filter (hDistinct : Distinct eq entries)
    (keep : Key × Value → Bool) : Distinct eq (entries.filter keep) :=
  List.Pairwise.filter keep hDistinct

end HashTable
end Foundation
end KZEvent
