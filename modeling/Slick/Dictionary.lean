/-!
# Dictionaries in insertion order

A dictionary is the list of its entries. Writing to a key that is present replaces the
value in place, and writing to a new key adds an entry at the end, so the order of the
entries is the order in which the keys were first written.
-/

namespace Slick

/-- Entries with text keys, in the order in which the keys were first written. -/
abbrev Dictionary (α : Type) := List (String × α)

namespace Dictionary

/-- The value of a key, if it is present. -/
def find? {α : Type} (key : String) : Dictionary α → Option α
  | [] => none
  | (k, v) :: rest => if k = key then some v else find? key rest

/-- Writes one entry. -/
def put {α : Type} (key : String) (value : α) : Dictionary α → Dictionary α
  | [] => [(key, value)]
  | (k, v) :: rest => if k = key then (k, value) :: rest else (k, v) :: put key value rest

/-- The dictionary left by writing the entries one after another: of a repeated key the first
position and the last value stay. -/
def ofEntries {α : Type} (entries : List (String × α)) : Dictionary α :=
  entries.foldl (fun dict entry => dict.put entry.1 entry.2) []

/-- Whether a key is present. -/
def has {α : Type} (key : String) (dict : Dictionary α) : Bool :=
  dict.any fun entry => entry.1 == key

/-- After an entry is put, its key has its value and the other keys keep theirs. -/
theorem find?_put {α : Type} (dict : Dictionary α) (key other : String) (value : α) :
    (dict.put key value).find? other = if key = other then some value else dict.find? other := by
  induction dict with
  | nil => simp [put, find?]
  | cons entry rest ih =>
    obtain ⟨k, v⟩ := entry
    simp only [put]
    split
    · next hk =>
      subst hk
      simp only [find?]
      split <;> rfl
    · next hk =>
      simp only [find?, ih]
      split
      · next hother =>
        subst hother
        rw [if_neg (Ne.symm hk)]
      · rfl

/-- A new key is added behind the entries that are there. -/
theorem put_of_not_has {α : Type} {dict : Dictionary α} {key : String} (value : α)
    (h : dict.has key = false) : dict.put key value = dict ++ [(key, value)] := by
  induction dict with
  | nil => rfl
  | cons entry rest ih =>
    obtain ⟨k, v⟩ := entry
    simp only [has, List.any_cons, Bool.or_eq_false_iff, beq_eq_false_iff_ne] at h
    simp only [put, if_neg h.1, List.cons_append]
    rw [ih h.2]

/-- To put an entry keeps the keys apart. -/
theorem keys_put_nodup {α : Type} {dict : Dictionary α} (key : String) (value : α)
    (h : (dict.map Prod.fst).Nodup) : ((dict.put key value).map Prod.fst).Nodup := by
  have mem : ∀ {d : Dictionary α} {k : String}, k ∈ (d.put key value).map Prod.fst →
      k = key ∨ k ∈ d.map Prod.fst := by
    intro d k hk
    induction d with
    | nil => simpa [put] using hk
    | cons entry rest ih =>
      obtain ⟨k', v'⟩ := entry
      simp only [put] at hk
      split at hk
      · next hkey => exact .inr (by simpa using hk)
      · simp only [List.map_cons, List.mem_cons] at hk ⊢
        obtain rfl | hk := hk
        · exact .inr (.inl rfl)
        · obtain h | h := ih hk
          · exact .inl h
          · exact .inr (.inr h)
  induction dict with
  | nil => simp [put]
  | cons entry rest ih =>
    obtain ⟨k, v⟩ := entry
    simp only [List.map_cons, List.nodup_cons] at h
    simp only [put]
    split
    · simpa using h
    · next hk =>
      simp only [List.map_cons, List.nodup_cons]
      refine ⟨fun hmem => ?_, ih h.2⟩
      obtain hkey | hrest := mem hmem
      · exact hk hkey
      · exact h.1 hrest

/-- Each key has one entry. -/
theorem keys_ofEntries_nodup {α : Type} (entries : List (String × α)) :
    ((ofEntries entries).map Prod.fst).Nodup := by
  have step : ∀ (more : List (String × α)) (dict : Dictionary α), (dict.map Prod.fst).Nodup →
      ((more.foldl (fun dict entry => dict.put entry.1 entry.2) dict).map Prod.fst).Nodup := by
    intro more
    induction more with
    | nil => intro dict h; exact h
    | cons entry more ih =>
      intro dict h
      exact ih _ (keys_put_nodup entry.1 entry.2 h)
  exact step entries [] (by simp)

end Dictionary

end Slick
