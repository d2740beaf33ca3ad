import Mathlib.Data.List.Nodup

/-!
# Dictionaries

A Python `dict` with string keys is a list of entries in insertion order.
-/
namespace AskLens.Python

abbrev Dict (α : Type) := List (String × α)

namespace Dict

variable {α : Type}

def get? (d : Dict α) (key : String) : Option α := d.lookup key

/-- `d[key] = value`: an existing key keeps its position. -/
def set : Dict α → String → α → Dict α
  | [], key, value => [(key, value)]
  | (k, v) :: rest, key, value =>
    if k = key then (k, value) :: rest else (k, v) :: set rest key value

def keys (d : Dict α) : List String := d.map Prod.fst

def values (d : Dict α) : List α := d.map Prod.snd

/-- The dict that a loop of assignments builds. -/
def ofEntries (entries : List (String × α)) : Dict α :=
  entries.foldl (fun d e => d.set e.1 e.2) []

theorem mem_of_get? {d : Dict α} {key : String} {value : α} (h : d.get? key = some value) :
    (key, value) ∈ d := by
  induction d with
  | nil => simp [get?] at h
  | cons e rest ih =>
    obtain ⟨k, v⟩ := e
    unfold get? at h
    rw [List.lookup_cons] at h
    by_cases hk : key = k
    · subst hk
      obtain rfl : v = value := by simpa using h
      simp
    · rw [beq_false_of_ne hk] at h
      exact List.mem_cons_of_mem _ (ih h)

theorem get?_eq_some_iff {d : Dict α} (hd : d.keys.Nodup) {key : String} {value : α} :
    d.get? key = some value ↔ (key, value) ∈ d := by
  refine ⟨mem_of_get?, fun h => ?_⟩
  induction d with
  | nil => simp at h
  | cons e rest ih =>
    obtain ⟨k, v⟩ := e
    simp only [keys, List.map_cons, List.nodup_cons] at hd
    unfold get?
    rw [List.lookup_cons]
    rcases List.mem_cons.mp h with heq | hmem
    · obtain ⟨rfl, rfl⟩ := Prod.mk.inj heq
      simp
    · have hne : key ≠ k := by
        rintro rfl
        exact hd.1 (List.mem_map_of_mem (f := Prod.fst) hmem)
      rw [beq_false_of_ne hne]
      exact ih hd.2 hmem

/-- Where the keys are the names of the values, a value stands under its name. -/
theorem get?_of_mem_values {d : Dict α} (hd : d.keys.Nodup) {name : α → String}
    (hname : ∀ e ∈ d, name e.2 = e.1) {value : α} (h : value ∈ d.values) :
    d.get? (name value) = some value := by
  obtain ⟨e, he, rfl⟩ := List.mem_map.mp h
  rw [hname e he]
  exact (get?_eq_some_iff hd).mpr he

theorem get?_isSome_iff {d : Dict α} {key : String} : (d.get? key).isSome ↔ key ∈ d.keys := by
  induction d with
  | nil => simp [get?, keys]
  | cons e rest ih =>
    obtain ⟨k, v⟩ := e
    simp only [get?, keys, List.lookup_cons, List.map_cons, List.mem_cons] at ih ⊢
    by_cases hk : key = k
    · simp [hk]
    · simp [hk, beq_false_of_ne hk, ih]

theorem mem_set {d : Dict α} {key : String} {value : α} {e : String × α}
    (h : e ∈ d.set key value) : e = (key, value) ∨ e ∈ d := by
  induction d with
  | nil => simpa [set] using h
  | cons f rest ih =>
    unfold set at h
    split_ifs at h with hk
    · rcases List.mem_cons.mp h with rfl | h
      · exact .inl (by rw [hk])
      · exact .inr (List.mem_cons_of_mem _ h)
    · rcases List.mem_cons.mp h with rfl | h
      · exact .inr (by simp)
      · exact (ih h).imp_right (List.mem_cons_of_mem _)

theorem mem_keys_set {d : Dict α} {key k : String} {value : α} :
    k ∈ (d.set key value).keys ↔ k = key ∨ k ∈ d.keys := by
  induction d with
  | nil => simp [set, keys]
  | cons f rest ih =>
    unfold set
    split_ifs with hk
    · simp [keys, hk]
    · simp only [keys, List.map_cons, List.mem_cons] at ih ⊢
      rw [ih]
      tauto

theorem nodup_set {d : Dict α} (hd : d.keys.Nodup) (key : String) (value : α) :
    (d.set key value).keys.Nodup := by
  induction d with
  | nil => simp [set, keys]
  | cons f rest ih =>
    simp only [keys, List.map_cons, List.nodup_cons] at hd
    unfold set
    split_ifs with hk
    · simpa [keys] using hd
    · simp only [keys, List.map_cons, List.nodup_cons]
      refine ⟨fun hmem => ?_, ih hd.2⟩
      rcases mem_keys_set.mp hmem with h | h
      · exact hk h
      · exact hd.1 h

theorem get?_cons (j : String) (v : α) (rest : Dict α) (k : String) :
    get? ((j, v) :: rest) k = if k = j then some v else get? rest k := by
  unfold get?
  rw [List.lookup_cons]
  by_cases hk : k = j
  · simp [hk]
  · simp [hk, beq_false_of_ne hk]

theorem get?_set (d : Dict α) (key k : String) (value : α) :
    (d.set key value).get? k = if k = key then some value else d.get? k := by
  induction d with
  | nil => exact get?_cons key value [] k
  | cons e rest ih =>
    obtain ⟨j, v⟩ := e
    rw [set]
    split_ifs with hj hk hk
    · rw [get?_cons, hj, if_pos hk]
    · rw [get?_cons, get?_cons, hj, if_neg hk, if_neg hk]
    · rw [get?_cons, ih, if_pos hk, if_neg fun h => hj (h.symm.trans hk)]
    · rw [get?_cons, get?_cons, ih, if_neg hk]

theorem get?_foldl_set_keys (keys : List String) (value : α) (d : Dict α) (k : String) :
    ((keys.map fun key => (key, value)).foldl (fun d e => d.set e.1 e.2) d).get? k =
      if k ∈ keys then some value else d.get? k := by
  induction keys generalizing d with
  | nil => simp
  | cons key rest ih =>
    rw [List.map_cons, List.foldl_cons, ih, get?_set]
    by_cases hk : k ∈ rest
    · simp [hk]
    · by_cases hkey : k = key <;> simp [hk, hkey]

/-- Assignments keep the keys distinct and add no other entries. -/
theorem foldl_set (entries : List (String × α)) {d : Dict α} (hd : d.keys.Nodup) :
    (entries.foldl (fun d e => d.set e.1 e.2) d).keys.Nodup ∧
      ∀ e ∈ entries.foldl (fun d e => d.set e.1 e.2) d, e ∈ entries ∨ e ∈ d := by
  induction entries generalizing d with
  | nil => exact ⟨hd, fun e he => .inr he⟩
  | cons f rest ih =>
    obtain ⟨hnodup, hmem⟩ := ih (nodup_set hd f.1 f.2)
    refine ⟨hnodup, fun e he => ?_⟩
    rcases hmem e he with h | h
    · exact .inl (List.mem_cons_of_mem _ h)
    · rcases mem_set h with rfl | h
      · exact .inl (by simp)
      · exact .inr h

theorem nodup_ofEntries (entries : List (String × α)) : (ofEntries entries).keys.Nodup :=
  (foldl_set entries (by simp [keys])).1

theorem mem_keys_ofEntries {entries : List (String × α)} {key : String} :
    key ∈ (ofEntries entries).keys ↔ key ∈ entries.map Prod.fst := by
  have hfold : ∀ (rest : List (String × α)) (d : Dict α),
      key ∈ (rest.foldl (fun d e => d.set e.1 e.2) d).keys ↔
        key ∈ d.keys ∨ key ∈ rest.map Prod.fst := by
    intro rest
    induction rest with
    | nil => simp
    | cons e rest ih =>
      intro d
      rw [List.foldl_cons, ih, mem_keys_set, List.map_cons, List.mem_cons]
      tauto
  rw [ofEntries, hfold]
  simp [keys]

theorem set_of_notMem {d : Dict α} {key : String} (h : key ∉ d.keys) (value : α) :
    d.set key value = d ++ [(key, value)] := by
  induction d with
  | nil => rfl
  | cons f rest ih =>
    simp only [keys, List.map_cons, List.mem_cons, not_or] at h
    unfold set
    rw [if_neg (Ne.symm h.1), ih h.2]
    rfl

theorem ofEntries_eq_self {entries : List (String × α)} (h : (entries.map Prod.fst).Nodup) :
    ofEntries entries = entries := by
  have hfold : ∀ (rest : List (String × α)) (d : Dict α), (d.keys ++ rest.map Prod.fst).Nodup →
      rest.foldl (fun d e => d.set e.1 e.2) d = d ++ rest := by
    intro rest
    induction rest with
    | nil => simp
    | cons e rest ih =>
      intro d hd
      have hnew : e.1 ∉ d.keys := by
        intro hmem
        exact (List.nodup_append.mp hd).2.2 e.1 hmem e.1 (by simp) rfl
      rw [List.foldl_cons, set_of_notMem hnew, ih]
      · simp
      · simpa [keys, List.append_assoc] using hd
  exact hfold entries [] (by simpa [keys] using h)

theorem mem_of_mem_ofEntries {entries : List (String × α)} {e : String × α}
    (h : e ∈ ofEntries entries) : e ∈ entries := by
  rcases (foldl_set entries (by simp [keys])).2 e h with h | h
  · exact h
  · simp at h

end Dict

end AskLens.Python
