/-!
# Ordered maps

A map is kept as its entries in ascending order of the keys. Every map has one
such list, so two maps are equal as soon as they have the same entries, in
whatever order these were put in.

* `get?_insert_self` and `get?_insert_of_ne` say what a map holds after an insertion;
* `mem_entries_iff` relates the entries to the look-up, and `entries_ofList_perm` to a list;
* `ext_get?`: a map is known by what it holds.
-/

namespace Versioning

/-- A map from ordered keys, as its entries in ascending order. -/
structure OrderedMap (κ υ : Type) [Ord κ] where
  entries : List (κ × υ)
  ascending : entries.Pairwise fun a b => compare a.1 b.1 = .lt

namespace OrderedMap

variable {κ υ : Type} [Ord κ]

instance [DecidableEq κ] [DecidableEq υ] : DecidableEq (OrderedMap κ υ) := fun a b =>
  if h : a.entries = b.entries then
    .isTrue (by cases a; cases b; cases h; rfl)
  else .isFalse fun hab => h (by rw [hab])

/-- Two maps with the same entries are equal. -/
theorem ext_entries {a b : OrderedMap κ υ} (h : a.entries = b.entries) : a = b := by
  cases a; cases b; cases h; rfl

/-- The map without entries. -/
def empty : OrderedMap κ υ :=
  ⟨[], .nil⟩

instance : Inhabited (OrderedMap κ υ) := ⟨empty⟩

/-- The keys in ascending order. -/
def keys (m : OrderedMap κ υ) : List κ :=
  m.entries.map (·.1)

/-- Whether the map has no entry. -/
def isEmpty (m : OrderedMap κ υ) : Bool :=
  m.entries.isEmpty

/-- The value of a key in some entries. -/
def find? (key : κ) : List (κ × υ) → Option υ
  | [] => none
  | (k, v) :: rest => if compare key k = .eq then some v else find? key rest

/-- The value of a key. -/
def get? (m : OrderedMap κ υ) (key : κ) : Option υ :=
  find? key m.entries

/-- Puts an entry in its place among ascending entries, instead of one with an equal key. -/
def insertEntry (key : κ) (value : υ) : List (κ × υ) → List (κ × υ)
  | [] => [(key, value)]
  | (k, v) :: rest =>
    match compare key k with
    | .lt => (key, value) :: (k, v) :: rest
    | .eq => (key, value) :: rest
    | .gt => (k, v) :: insertEntry key value rest

/-- Insertion adds no other entry. -/
theorem mem_insertEntry {key : κ} {value : υ} {entries : List (κ × υ)} {e : κ × υ}
    (h : e ∈ insertEntry key value entries) : e = (key, value) ∨ e ∈ entries := by
  induction entries with
  | nil => simpa [insertEntry] using h
  | cons a rest ih =>
    rw [insertEntry] at h
    split at h
    · simpa using h
    · rcases List.mem_cons.1 h with rfl | h
      · exact .inl rfl
      · exact .inr (List.mem_cons_of_mem _ h)
    · rcases List.mem_cons.1 h with rfl | h
      · exact .inr List.mem_cons_self
      · exact (ih h).imp_right (List.mem_cons_of_mem _)

variable [Std.TransOrd κ]

/-- Insertion keeps the entries ascending. -/
theorem pairwise_insertEntry (key : κ) (value : υ) {entries : List (κ × υ)}
    (h : entries.Pairwise fun a b => compare a.1 b.1 = .lt) :
    (insertEntry key value entries).Pairwise fun a b => compare a.1 b.1 = .lt := by
  induction entries with
  | nil => simp [insertEntry]
  | cons a rest ih =>
    obtain ⟨k, v⟩ := a
    rw [List.pairwise_cons] at h
    rw [insertEntry]
    split
    · next hlt =>
      refine List.pairwise_cons.2 ⟨fun e he => ?_, List.pairwise_cons.2 h⟩
      rcases List.mem_cons.1 he with rfl | he
      · exact hlt
      · exact Std.TransCmp.lt_trans hlt (h.1 e he)
    · next heq =>
      exact List.pairwise_cons.2
        ⟨fun e he => Std.TransCmp.lt_of_eq_of_lt heq (h.1 e he), h.2⟩
    · next hgt =>
      refine List.pairwise_cons.2 ⟨fun e he => ?_, ih h.2⟩
      rcases mem_insertEntry he with rfl | he
      · exact Std.OrientedCmp.gt_iff_lt.1 hgt
      · exact h.1 e he

/-- The map with one more entry, instead of the one that the key had. -/
def insert (m : OrderedMap κ υ) (key : κ) (value : υ) : OrderedMap κ υ :=
  ⟨insertEntry key value m.entries, pairwise_insertEntry key value m.ascending⟩

/-- The map of some entries; of two with an equal key the later one stands. -/
def ofList (entries : List (κ × υ)) : OrderedMap κ υ :=
  entries.foldl (fun m e => m.insert e.1 e.2) empty

omit [Std.TransOrd κ] in
@[simp] theorem get?_empty (key : κ) : (empty : OrderedMap κ υ).get? key = none := rfl

/-- The value of a key after its insertion. -/
theorem get?_insert_self [Std.LawfulEqOrd κ] (m : OrderedMap κ υ) (key : κ) (value : υ) :
    (m.insert key value).get? key = some value := by
  suffices ∀ entries, find? key (insertEntry key value entries) = some value from this _
  intro entries
  induction entries with
  | nil => simp [insertEntry, find?]
  | cons a rest ih =>
    rw [insertEntry]
    split
    · simp [find?]
    · simp [find?]
    · next hgt => simp [find?, hgt, ih]

/-- An insertion leaves the values of the other keys alone. -/
theorem get?_insert_of_ne [Std.LawfulEqOrd κ] (m : OrderedMap κ υ) {key other : κ} (value : υ)
    (h : other ≠ key) : (m.insert key value).get? other = m.get? other := by
  have hne : compare other key ≠ .eq := fun he => h (Std.LawfulEqOrd.eq_of_compare he)
  suffices ∀ entries, find? other (insertEntry key value entries) = find? other entries from this _
  intro entries
  induction entries with
  | nil => simp [insertEntry, find?, hne]
  | cons a rest ih =>
    rw [insertEntry]
    split
    · simp [find?, hne]
    · next heq =>
      obtain rfl := Std.LawfulEqOrd.eq_of_compare heq
      simp [find?, hne]
    · simp [find?, ih]

/-- A map with an entry that was put there is not empty. -/
theorem isEmpty_insert (m : OrderedMap κ υ) (key : κ) (value : υ) :
    (m.insert key value).isEmpty = false := by
  obtain ⟨entries, _⟩ := m
  cases entries with
  | nil => rfl
  | cons e rest =>
    show (insertEntry key value (e :: rest)).isEmpty = false
    rw [insertEntry]
    split <;> rfl

omit [Std.TransOrd κ] in
/-- A map in which a value is found is not empty, -/
theorem isEmpty_of_get? {m : OrderedMap κ υ} {key : κ} {value : υ} (h : m.get? key = some value) :
    m.isEmpty = false := by
  obtain ⟨entries, _⟩ := m
  cases entries with
  | nil => cases h
  | cons e rest => rfl

omit [Std.TransOrd κ] in
/-- An entry with a new key is added to the others. -/
theorem insertEntry_perm {key : κ} (value : υ) {entries : List (κ × υ)}
    (h : find? key entries = none) :
    (insertEntry key value entries).Perm ((key, value) :: entries) := by
  induction entries with
  | nil => exact .refl _
  | cons a rest ih =>
    obtain ⟨k, v⟩ := a
    rw [find?] at h
    split at h
    · cases h
    · next hne =>
      rw [insertEntry]
      split
      · exact .refl _
      · next heq => exact absurd heq hne
      · exact ((ih h).cons _).trans (.swap _ _ _)

/-- Entries with different keys are all kept. -/
theorem entries_ofList_perm [Std.LawfulEqOrd κ] {entries : List (κ × υ)}
    (h : (entries.map Prod.fst).Nodup) : (ofList entries).entries.Perm entries := by
  suffices ∀ m : OrderedMap κ υ, (∀ e ∈ entries, m.get? e.1 = none) →
      (entries.foldl (fun m e => m.insert e.1 e.2) m).entries.Perm (m.entries ++ entries) from
    this empty fun _ _ => rfl
  induction entries with
  | nil => exact fun m _ => .of_eq (List.append_nil _).symm
  | cons e entries ih =>
    intro m hfree
    obtain ⟨hfirst, hothers⟩ := List.forall_mem_cons.1 hfree
    rw [List.map_cons, List.nodup_cons] at h
    -- The other keys are still free after the first entry.
    have hstill : ∀ e' ∈ entries, (m.insert e.1 e.2).get? e'.1 = none := fun e' he' => by
      have hne : e'.1 ≠ e.1 := fun heq => h.1 (heq ▸ List.mem_map_of_mem he')
      rw [get?_insert_of_ne m e.2 hne, hothers e' he']
    have hinsert : (m.insert e.1 e.2).entries.Perm (e :: m.entries) := insertEntry_perm e.2 hfirst
    exact (ih h.2 _ hstill).trans ((hinsert.append_right entries).trans List.perm_middle.symm)

/-- No key is listed twice. -/
theorem nodup_keys (m : OrderedMap κ υ) : m.keys.Nodup := by
  rw [keys, List.Nodup, List.pairwise_map]
  refine m.ascending.imp fun hlt he => ?_
  rw [he] at hlt
  cases Std.ReflCmp.compare_self.symm.trans hlt

omit [Std.TransOrd κ] in
/-- The entries are the pairs of a key and the value that is found for it. -/
theorem mem_entries_iff [Std.LawfulEqOrd κ] (m : OrderedMap κ υ) (key : κ) (value : υ) :
    (key, value) ∈ m.entries ↔ m.get? key = some value := by
  obtain ⟨entries, h⟩ := m
  show (key, value) ∈ entries ↔ find? key entries = some value
  induction entries with
  | nil => simp [find?]
  | cons a rest ih =>
    obtain ⟨k, v⟩ := a
    rw [List.pairwise_cons] at h
    by_cases hk : compare key k = .eq
    · obtain rfl := Std.LawfulEqOrd.eq_of_compare hk
      have hrest : (key, value) ∉ rest := fun hm => by
        have := h.1 _ hm
        simp at this
      simp [find?, hrest, eq_comm]
    · have hne : key ≠ k := fun he => hk (by simp [he])
      simp [find?, hk, hne, ih h.2]

omit [Std.TransOrd κ] in
/-- The keys are those for which a value is found. -/
theorem mem_keys_iff [Std.LawfulEqOrd κ] (m : OrderedMap κ υ) (key : κ) :
    key ∈ m.keys ↔ ∃ value, m.get? key = some value := by
  simp only [keys, List.mem_map, Prod.exists, exists_and_right, exists_eq_right, mem_entries_iff]

omit [Std.TransOrd κ] in
/-- and in a map that is not empty a value is found. -/
theorem exists_get? [Std.LawfulEqOrd κ] {m : OrderedMap κ υ} (h : m.isEmpty = false) :
    ∃ key value, m.get? key = some value := by
  obtain ⟨⟨key, value⟩, hmem⟩ := List.isEmpty_eq_false_iff_exists_mem.1 h
  exact ⟨key, value, (m.mem_entries_iff key value).1 hmem⟩

/-- Two maps with the same look-ups are equal. -/
theorem ext_get? [Std.LawfulEqOrd κ] {a b : OrderedMap κ υ} (h : ∀ key, a.get? key = b.get? key) :
    a = b := by
  have hnodup (m : OrderedMap κ υ) : m.entries.Nodup := by
    refine m.ascending.imp fun hlt he => ?_
    rw [he] at hlt
    cases Std.ReflCmp.compare_self.symm.trans hlt
  have hperm : a.entries.Perm b.entries := by
    refine (List.perm_ext_iff_of_nodup (hnodup a) (hnodup b)).2 fun (key, value) => ?_
    rw [mem_entries_iff, mem_entries_iff, h]
  refine ext_entries (hperm.eq_of_pairwise (fun e e' _ _ hlt hgt => ?_) a.ascending b.ascending)
  -- No two entries come before each other.
  cases hgt.symm.trans (Std.OrientedCmp.gt_iff_lt.2 hlt)

/-- Nothing changes when a value is put where it is. -/
theorem insert_of_get? [Std.LawfulEqOrd κ] {m : OrderedMap κ υ} {key : κ} {value : υ}
    (h : m.get? key = some value) : m.insert key value = m := by
  refine ext_get? fun key' => ?_
  by_cases hkey : key' = key
  · rw [hkey, get?_insert_self, h]
  · rw [get?_insert_of_ne m value hkey]

end OrderedMap

end Versioning
