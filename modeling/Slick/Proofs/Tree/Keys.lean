import Mathlib.Data.Finset.Card
import Mathlib.Data.List.Perm.Subperm
import Slick.Tree

/-!
# Trees and their keys

Attributes are compared without regard to their order, and the key of a tree lists them in the order
of their names. Both come to the same: attributes agree exactly if one list of entries is a
permutation of the other, and a permutation of entries with distinct names is undone by sorting. So
two trees are equal exactly if they have one key, a hash that is mixed from what is in the key
cannot tell equal trees apart, and a set of trees has as many members as there are keys. Main
statement: `Tree.equality_and_hashing_agree`.
-/

namespace Slick

namespace Dictionary

variable {α : Type}

/-- The value that some entries give to a name, which is the last one if there are several. -/
def lastValue? (name : String) (entries : List (String × α)) : Option α :=
  (entries.reverse.find? fun entry => entry.1 == name).map Prod.snd

/-- Writing entries one after another leaves the last value of each name. -/
theorem find?_ofEntries (entries : List (String × α)) (name : String) :
    (ofEntries entries).find? name = lastValue? name entries := by
  induction entries using List.reverseRecOn with
  | nil => rfl
  | append_singleton entries entry ih =>
    have hput : ofEntries (entries ++ [entry]) = (ofEntries entries).put entry.1 entry.2 := by
      simp [ofEntries]
    rw [hput, find?_put, ih, lastValue?, lastValue?, List.reverse_append, List.reverse_singleton,
      List.singleton_append]
    by_cases hname : entry.1 = name
    · rw [if_pos hname, List.find?_cons_of_pos (by simpa using hname), Option.map_some]
    · rw [if_neg hname, List.find?_cons_of_neg (by simpa using hname)]

/-- Where names are distinct, the value of a name is the one that stands beside it. -/
theorem find?_eq_some_iff {dict : Dictionary α} (hnodup : (dict.map Prod.fst).Nodup)
    {name : String} {value : α} : dict.find? name = some value ↔ (name, value) ∈ dict := by
  induction dict with
  | nil => simp [find?]
  | cons entry rest ih =>
    obtain ⟨first, firstValue⟩ := entry
    rw [List.map_cons, List.nodup_cons] at hnodup
    rw [find?, List.mem_cons, Prod.mk.injEq]
    by_cases hname : first = name
    · subst hname
      have hrest : (first, value) ∉ rest := fun hmem =>
        hnodup.1 (List.mem_map.mpr ⟨_, hmem, rfl⟩)
      simp [hrest, eq_comm]
    · simp [hname, Ne.symm hname, ih hnodup.2]

end Dictionary

namespace Attributes

private theorem entries_nodup (a : Attributes) : a.entries.Nodup := a.nodup.of_map Prod.fst

/-- Attributes hold the same entries exactly if they give the same value to each name. -/
theorem perm_iff_find? (a b : Attributes) :
    a.entries.Perm b.entries ↔ ∀ name, a.entries.find? name = b.entries.find? name := by
  rw [List.perm_ext_iff_of_nodup a.entries_nodup b.entries_nodup, Prod.forall]
  refine forall_congr' fun name => ?_
  simp only [← Dictionary.find?_eq_some_iff a.nodup, ← Dictionary.find?_eq_some_iff b.nodup]
  constructor
  · exact Option.ext
  · rintro hsame value
    rw [hsame]

/-- **Attributes are the same** exactly if they are the same entries in some order. -/
theorem same_iff_perm (a b : Attributes) : a.same b = true ↔ a.entries.Perm b.entries := by
  rw [same, Bool.and_eq_true, beq_iff_eq, List.all_eq_true]
  simp only [beq_iff_eq, Dictionary.find?_eq_some_iff b.nodup]
  constructor
  · rintro ⟨hlength, hsubset⟩
    have hsubperm := List.subperm_of_subset a.entries_nodup hsubset
    exact hsubperm.perm_of_length_le (Nat.le_of_eq hlength.symm)
  · intro hperm
    exact ⟨hperm.length_eq, fun entry hentry => hperm.mem_iff.mp hentry⟩

private theorem sorted_perm (a : Attributes) : a.sorted.Perm a.entries := List.mergeSort_perm _ _

private theorem sorted_pairwise (a : Attributes) : a.sorted.Pairwise fun x y => x.1 ≤ y.1 := by
  have hsorted : a.sorted.Pairwise fun x y => decide (x.1 ≤ y.1) = true := by
    refine List.pairwise_mergeSort (fun x y z hxy hyz => ?_) (fun x y => ?_) a.entries
    · rw [decide_eq_true_iff] at hxy hyz ⊢
      exact String.le_trans hxy hyz
    · rw [Bool.or_eq_true, decide_eq_true_iff, decide_eq_true_iff]
      exact String.le_total x.1 y.1
  exact hsorted.imp of_decide_eq_true

/-- Sorting forgets the order of the entries and nothing else. -/
theorem sorted_eq_iff (a b : Attributes) : a.sorted = b.sorted ↔ a.entries.Perm b.entries := by
  constructor
  · intro hsorted
    exact a.sorted_perm.symm.trans (hsorted ▸ b.sorted_perm)
  · intro hperm
    refine List.Perm.eq_of_pairwise ?_ a.sorted_pairwise b.sorted_pairwise
      (a.sorted_perm.trans (hperm.trans b.sorted_perm.symm))
    -- Entries of one name are one entry, for names are distinct.
    intro x y hx hy hxy hyx
    have hx : x ∈ b.entries := hperm.mem_iff.mp (a.sorted_perm.mem_iff.mp hx)
    have hy : y ∈ b.entries := b.sorted_perm.mem_iff.mp hy
    exact List.inj_on_of_nodup_map b.nodup hx hy (String.le_antisymm hxy hyx)

private theorem same_iff_sorted (a b : Attributes) : a.same b = true ↔ a.sorted = b.sorted :=
  (same_iff_perm a b).trans (sorted_eq_iff a b).symm

end Attributes

namespace Tree

mutual

/-- The same tree with the attributes of its nodes in another order, at any level. -/
def Rearranged : Tree → Tree → Prop
  | mk name children collapsed attributes, mk name' children' collapsed' attributes' =>
    name = name' ∧ RearrangedAll children children' ∧ collapsed = collapsed' ∧
      attributes.entries.Perm attributes'.entries

/-- The same trees with attributes in another order. -/
def RearrangedAll : List Tree → List Tree → Prop
  | [], [] => True
  | tree :: rest, tree' :: rest' => Rearranged tree tree' ∧ RearrangedAll rest rest'
  | _, _ => False

end

mutual

/-- The hash of a tree, mixed from its name, the hashes of its children, its flag and its attributes
in the order of their names. -/
def hash (mix : String → List Int → Bool → List (String × String) → Int) : Tree → Int
  | mk name children collapsed attributes =>
    mix name (hashes mix children) collapsed attributes.sorted

/-- The hashes of some trees. -/
def hashes (mix : String → List Int → Bool → List (String × String) → Int) : List Tree → List Int
  | [] => []
  | tree :: rest => hash mix tree :: hashes mix rest

end

mutual

/-- **Trees are equal exactly if they have one key.** -/
theorem equal_iff_key : (m n : Tree) → (equal m n = true ↔ m.key = n.key)
  | mk name children collapsed attributes, mk name' children' collapsed' attributes' => by
    simp only [equal, key, Bool.and_eq_true, beq_iff_eq, Key.mk.injEq, and_assoc,
      equalLists_iff_keys children children', Attributes.same_iff_sorted]

private theorem equalLists_iff_keys :
    (ms ns : List Tree) → (equalLists ms ns = true ↔ keys ms = keys ns)
  | [], [] => by simp [equalLists, keys]
  | [], _ :: _ => by simp [equalLists, keys]
  | _ :: _, [] => by simp [equalLists, keys]
  | m :: ms, n :: ns => by
    simp only [equalLists, keys, Bool.and_eq_true, List.cons.injEq, equal_iff_key m n,
      equalLists_iff_keys ms ns]

end

mutual

/-- Trees are equal exactly if they differ in nothing but the order of attributes. -/
theorem equal_iff_rearranged : (m n : Tree) → (equal m n = true ↔ Rearranged m n)
  | mk name children collapsed attributes, mk name' children' collapsed' attributes' => by
    simp only [equal, Rearranged, Bool.and_eq_true, beq_iff_eq, and_assoc,
      equalLists_iff_rearranged children children', Attributes.same_iff_perm]

private theorem equalLists_iff_rearranged : (ms ns : List Tree) →
    (equalLists ms ns = true ↔ RearrangedAll ms ns)
  | [], [] => by simp [equalLists, RearrangedAll]
  | [], _ :: _ => by simp [equalLists, RearrangedAll]
  | _ :: _, [] => by simp [equalLists, RearrangedAll]
  | m :: ms, n :: ns => by
    simp only [equalLists, RearrangedAll, Bool.and_eq_true, equal_iff_rearranged m n,
      equalLists_iff_rearranged ms ns]

end

section

variable (mix : String → List Int → Bool → List (String × String) → Int)

mutual

/-- A hash depends on the key alone. -/
theorem hash_eq_of_key : (m n : Tree) → m.key = n.key → m.hash mix = n.hash mix
  | mk name children collapsed attributes, mk name' children' collapsed' attributes', h => by
    rw [key, key, Key.mk.injEq] at h
    obtain ⟨rfl, hchildren, rfl, hsorted⟩ := h
    rw [hash, hash, hashes_eq_of_keys children children' hchildren, hsorted]

private theorem hashes_eq_of_keys :
    (ms ns : List Tree) → keys ms = keys ns → hashes mix ms = hashes mix ns
  | [], [], _ => rfl
  | [], _ :: _, h => by simp [keys] at h
  | _ :: _, [], h => by simp [keys] at h
  | m :: ms, n :: ns, h => by
    rw [keys, keys, List.cons.injEq] at h
    rw [hashes, hashes, hash_eq_of_key m n h.1, hashes_eq_of_keys ms ns h.2]

end

/-- A set with one more tree, unless a member has the same hash and is equal to it. -/
def insert (set : List Tree) (tree : Tree) : List Tree :=
  if set.any fun member => member.hash mix == tree.hash mix && equal member tree then set
  else set ++ [tree]

/-- The members of the set that is left by adding trees one after another. -/
def setOf (trees : List Tree) : List Tree := trees.foldl (insert mix) []

/-- A tree is found in a set exactly if its key is there: looking at members with the same hash only
misses none that is equal. -/
theorem found_iff (set : List Tree) (tree : Tree) :
    (set.any fun member => member.hash mix == tree.hash mix && equal member tree) = true ↔
      tree.key ∈ set.map key := by
  rw [List.any_eq_true, List.mem_map]
  refine exists_congr fun member => and_congr_right fun _ => ?_
  rw [Bool.and_eq_true, beq_iff_eq, equal_iff_key]
  exact ⟨And.right, fun hkey => ⟨hash_eq_of_key mix member tree hkey, hkey⟩⟩

/-- Adding a tree adds its key, and no key is there twice. -/
theorem insert_keys {set : List Tree} (hnodup : (set.map key).Nodup) (tree : Tree) :
    ((insert mix set tree).map key).Nodup ∧
      ∀ k, k ∈ (insert mix set tree).map key ↔ k ∈ set.map key ∨ k = tree.key := by
  unfold insert
  split
  · next hfound =>
    rw [found_iff] at hfound
    refine ⟨hnodup, fun k => ⟨.inl, ?_⟩⟩
    rintro (hk | rfl)
    · exact hk
    · exact hfound
  · next hmissing =>
    rw [found_iff] at hmissing
    rw [List.map_append, List.map_singleton]
    refine ⟨?_, fun k => by simp⟩
    rw [← List.concat_eq_append]
    exact hnodup.concat hmissing

/-- After a run of additions the keys are those that were added, each of them once. -/
theorem foldl_insert_keys (trees : List Tree) {set : List Tree} (hnodup : (set.map key).Nodup) :
    ((trees.foldl (insert mix) set).map key).Nodup ∧
      ∀ k, k ∈ (trees.foldl (insert mix) set).map key ↔ k ∈ set.map key ∨ k ∈ trees.map key := by
  induction trees generalizing set with
  | nil => exact ⟨hnodup, by simp⟩
  | cons tree trees ih =>
    obtain ⟨hstep, hkeys⟩ := insert_keys mix hnodup tree
    obtain ⟨hrun, hall⟩ := ih hstep
    refine ⟨hrun, fun k => ?_⟩
    rw [List.foldl_cons, hall, hkeys, List.map_cons, List.mem_cons, or_assoc]

/-- A set of trees has one member for each key. -/
theorem length_setOf (trees : List Tree) :
    (setOf mix trees).length = (trees.map key).toFinset.card := by
  have hempty : (([] : List Tree).map key).Nodup := List.nodup_nil
  obtain ⟨hnodup, hkeys⟩ := foldl_insert_keys mix trees hempty
  rw [← setOf] at hnodup hkeys
  have hsame : ((setOf mix trees).map key).toFinset = (trees.map key).toFinset := by
    ext k
    rw [List.mem_toFinset, List.mem_toFinset, hkeys]
    simp
  rw [← hsame, List.toFinset_card_of_nodup hnodup, List.length_map]

end

/-- There are as many different trees as there are keys. -/
theorem countDistinct_eq_card (trees : List Tree) :
    countDistinct trees = (trees.map key).toFinset.card := by
  induction trees with
  | nil => rfl
  | cons tree rest ih =>
    have hany : rest.any (equal tree) = true ↔ tree.key ∈ (rest.map key).toFinset := by
      simp only [List.any_eq_true, equal_iff_key, List.mem_toFinset, List.mem_map,
        eq_comm (a := tree.key)]
    rw [countDistinct, List.map_cons, List.toFinset_cons]
    split
    · next hfound => rw [Finset.insert_eq_of_mem (hany.mp hfound), ih]
    · next hmissing => rw [Finset.card_insert_of_notMem (mt hany.mpr hmissing), ih]

/-- **Equality and hashing agree.** Trees are equal exactly if they have one key, and then they have
the same hash, whatever way hashes are mixed. Equality is an equivalence, and it overlooks the order
of attributes at every level and nothing else, where attributes that are given by entries hold the
last value of each name. The size of a set of trees is the number of their keys, for members that
are compared one by one as well as for those that are looked up by their hashes. -/
theorem equality_and_hashing_agree :
    (∀ m n : Tree, equal m n = true ↔ m.key = n.key) ∧
    (∀ mix, ∀ m n : Tree, equal m n = true → m.hash mix = n.hash mix) ∧
    (Equivalence fun m n : Tree => equal m n = true) ∧
    (∀ m n : Tree, equal m n = true ↔ Rearranged m n) ∧
    (∀ entries entries' : List (String × String),
      (Attributes.ofEntries entries).entries.Perm (Attributes.ofEntries entries').entries ↔
        ∀ name, Dictionary.lastValue? name entries = Dictionary.lastValue? name entries') ∧
    ∀ trees : List Tree, countDistinct trees = (trees.map key).toFinset.card ∧
      ∀ mix, (setOf mix trees).length = (trees.map key).toFinset.card := by
  refine ⟨equal_iff_key, fun mix m n h => ?_, ?_, equal_iff_rearranged, fun entries entries' => ?_,
    fun trees => ⟨countDistinct_eq_card trees, fun mix => length_setOf mix trees⟩⟩
  · exact hash_eq_of_key mix m n ((equal_iff_key m n).mp h)
  · simp only [equal_iff_key]
    exact ⟨fun _ => rfl, fun h => h.symm, fun h h' => h.trans h'⟩
  · rw [Attributes.perm_iff_find?]
    simp only [Attributes.ofEntries, Dictionary.find?_ofEntries]

/-- A node whose only child has two attributes, one of them written twice in the first tree, and in
another order in the second. -/
theorem equality_and_hashing_agree_reordered :
    let child := fun entries => mk "child" [] true (.ofEntries entries)
    let m := branch "root" [child [("b", "0"), ("a", "1"), ("b", "2")]]
    let n := branch "root" [child [("a", "1"), ("b", "2")]]
    equal m n = true ∧ m.key = n.key ∧ (∀ mix, m.hash mix = n.hash mix) ∧
      ∀ mix, (setOf mix [m, n]).length = (([m, n].map key).toFinset).card := by
  intro child m n
  obtain ⟨hkey, hhash, -, -, -, hsize⟩ := equality_and_hashing_agree
  have hequal : equal m n = true := by decide
  exact ⟨hequal, (hkey m n).mp hequal, fun mix => hhash mix m n hequal, (hsize [m, n]).2⟩

end Tree

end Slick
