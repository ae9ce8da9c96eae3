/-!
# Lists whose entries carry a key

A keyed list remembers the order in which its keys first appeared. Putting an
entry under a known key replaces the old entry where it stands; an entry under
a new key goes to the end. `find_put` says what a look-up sees afterwards and
`keys_put` what happens to the order.
-/

namespace SpatialDiagram

namespace Keyed

variable {κ α : Type} [DecidableEq κ]

/-- The first entry filed under a key. -/
def find? (key : α → κ) (k : κ) : List α → Option α
  | [] => none
  | x :: xs => if key x = k then some x else find? key k xs

/-- Replaces the entry that has the same key, or appends. -/
def put (key : α → κ) (x : α) : List α → List α
  | [] => [x]
  | y :: ys => if key y = key x then x :: ys else y :: put key x ys

/-- Drops every entry filed under a key. -/
def erase (key : α → κ) (k : κ) (xs : List α) : List α :=
  xs.filter fun x => key x ≠ k

/-- Changes the entries filed under a key. -/
def modify (key : α → κ) (k : κ) (f : α → α) (xs : List α) : List α :=
  xs.map fun x => if key x = k then f x else x

@[simp] theorem find_nil (key : α → κ) (k : κ) : find? key k [] = none := rfl

theorem find_cons (key : α → κ) (k : κ) (x : α) (xs : List α) :
    find? key k (x :: xs) = if key x = k then some x else find? key k xs := rfl

/-- After an entry is put, its own key finds it and every other key finds what it found before. -/
theorem find_put (key : α → κ) (x : α) (k : κ) (xs : List α) :
    find? key k (put key x xs) = if key x = k then some x else find? key k xs := by
  induction xs with
  | nil => simp [put, find?]
  | cons y ys ih =>
      by_cases hy : key y = key x
      · by_cases hk : key x = k <;> simp_all [put, find?]
      · by_cases hk : key x = k
        · have : key y ≠ k := fun h => hy (h.trans hk.symm)
          simp_all [put, find?]
        · by_cases hyk : key y = k <;> simp_all [put, find?]

/-- A put keeps the order of the keys and adds a new one at the end. -/
theorem keys_put (key : α → κ) (x : α) (xs : List α) :
    (put key x xs).map key =
      if key x ∈ xs.map key then xs.map key else xs.map key ++ [key x] := by
  induction xs with
  | nil => simp [put]
  | cons y ys ih =>
      by_cases hy : key y = key x
      · simp [put, hy]
      · have hne : ¬ key x = key y := fun h => hy h.symm
        by_cases hm : key x ∈ ys.map key <;>
          simp_all [put]

theorem keys_modify (key : α → κ) (k : κ) (f : α → α) (hf : ∀ x, key (f x) = key x)
    (xs : List α) : (modify key k f xs).map key = xs.map key := by
  induction xs with
  | nil => rfl
  | cons x xs ih =>
      by_cases h : key x = k <;> simp_all [modify]

/-- A change that keeps the keys is seen at its own key only. -/
theorem find_modify (key : α → κ) (k : κ) (f : α → α) (hf : ∀ x, key (f x) = key x) (k' : κ)
    (xs : List α) :
    find? key k' (modify key k f xs) =
      if k' = k then (find? key k' xs).map f else find? key k' xs := by
  induction xs with
  | nil => simp [modify]
  | cons x xs ih =>
      simp only [modify, List.map_cons, find_cons] at ih ⊢
      by_cases hx : key x = k <;> by_cases hk : key x = k' <;> by_cases hkk : k' = k <;>
        simp_all

/-- Exactly the keys of a list are found. -/
theorem find_isSome_iff (key : α → κ) (k : κ) (xs : List α) :
    (find? key k xs).isSome = true ↔ k ∈ xs.map key := by
  induction xs with
  | nil => simp
  | cons y ys ih =>
      by_cases hy : key y = k
      · simp [find?, hy]
      · have hne : ¬ k = key y := fun h => hy h.symm
        simp_all [find?]

theorem find_some_key {key : α → κ} {k : κ} {xs : List α} {x : α}
    (h : find? key k xs = some x) : key x = k ∧ x ∈ xs := by
  induction xs with
  | nil => simp at h
  | cons y ys ih =>
      by_cases hy : key y = k
      · simp_all [find?]
      · simp only [find?, if_neg hy] at h
        exact ⟨(ih h).1, List.mem_cons_of_mem _ (ih h).2⟩

@[simp] theorem mem_erase (key : α → κ) (k : κ) (xs : List α) (x : α) :
    x ∈ erase key k xs ↔ x ∈ xs ∧ key x ≠ k := by
  simp [erase]

/-- What is left after an erasure keeps its order. -/
theorem keys_erase (key : α → κ) (k : κ) (xs : List α) :
    (erase key k xs).map key = (xs.map key).filter (· ≠ k) := by
  simp [erase, List.filter_map, Function.comp_def]

/-- After an erasure the key is not found, and every other key finds what it found before. -/
theorem find_erase (key : α → κ) (k k' : κ) (xs : List α) :
    find? key k' (erase key k xs) = if k' = k then none else find? key k' xs := by
  induction xs with
  | nil => simp [erase]
  | cons x xs ih =>
      simp only [erase, List.filter_cons] at ih ⊢
      by_cases hx : key x = k <;> by_cases hk : key x = k' <;> by_cases hkk : k' = k <;>
        simp_all [find_cons]

/-- A change of the entries that keeps their keys is seen by every look-up. -/
theorem find_map (key : α → κ) (f : α → α) (hf : ∀ x, key (f x) = key x) (k : κ)
    (xs : List α) : find? key k (xs.map f) = (find? key k xs).map f := by
  induction xs with
  | nil => rfl
  | cons x xs ih =>
      by_cases h : key x = k <;> simp [find_cons, hf, h, ih]

/-- In a list with one entry for each key, an entry is found by its own key. -/
theorem find_of_mem {key : α → κ} {xs : List α} (h : (xs.map key).Nodup) {x : α} (hx : x ∈ xs) :
    find? key (key x) xs = some x := by
  induction xs with
  | nil => simp at hx
  | cons y ys ih =>
      obtain ⟨hy, hys⟩ := List.nodup_cons.mp h
      rcases List.mem_cons.mp hx with rfl | hx
      · simp [find_cons]
      · have hne : key y ≠ key x := fun he => hy (he ▸ List.mem_map_of_mem hx)
        simp [find_cons, hne, ih hys hx]

theorem nodup_keys_put {key : α → κ} {xs : List α} (h : (xs.map key).Nodup) (x : α) :
    ((put key x xs).map key).Nodup := by
  rw [keys_put]
  split
  · exact h
  · rename_i hx
    rw [List.nodup_append]
    refine ⟨h, by simp, fun a ha b hb => ?_⟩
    rintro rfl
    exact hx (List.mem_singleton.mp hb ▸ ha)

theorem nodup_keys_erase {key : α → κ} {xs : List α} (h : (xs.map key).Nodup) (k : κ) :
    ((erase key k xs).map key).Nodup := by
  rw [keys_erase]
  exact h.filter _

/-- Of two puts under one key the later one counts. -/
theorem put_put_self {key : α → κ} {x y : α} (h : key x = key y) (xs : List α) :
    put key x (put key y xs) = put key x xs := by
  induction xs with
  | nil => simp [put, h]
  | cons z zs ih =>
      by_cases hz : key z = key y
      · simp [put, h, hz]
      · simp [put, h, hz, ih]

/-- A replacement goes past an entry of another key. -/
theorem put_put_comm {key : α → κ} {x y : α} (hxy : key x ≠ key y) {xs : List α}
    (hx : key x ∈ xs.map key) : put key x (put key y xs) = put key y (put key x xs) := by
  induction xs with
  | nil => cases hx
  | cons z zs ih =>
      by_cases hzx : key z = key x
      · simp [put, hzx, hxy]
      · have hrest : key x ∈ zs.map key := (List.mem_cons.mp hx).resolve_left (Ne.symm hzx)
        by_cases hzy : key z = key y
        · simp [put, hzy, Ne.symm hxy]
        · simp [put, hzx, hzy, ih hrest]

/-- Among entries with different keys, putting one leaves exactly those of the other keys. -/
theorem mem_put_iff {key : α → κ} {xs : List α} (h : (xs.map key).Nodup) (x y : α) :
    y ∈ put key x xs ↔ y = x ∨ y ∈ xs ∧ key y ≠ key x := by
  have hfind (z : α) (zs : List α) (hz : (zs.map key).Nodup) :
      z ∈ zs ↔ find? key (key z) zs = some z :=
    ⟨find_of_mem hz, fun hs => (find_some_key hs).2⟩
  rw [hfind y _ (nodup_keys_put h x), hfind y _ h, find_put]
  by_cases hk : key x = key y
  · simp [hk, eq_comm]
  · have hne : y ≠ x := fun he => hk (he ▸ rfl)
    simp [hk, hne, Ne.symm hk]

/-- In a list of pairs the first entry of a key is what a look-up gives. -/
theorem lookup_eq_find {ν : Type} (k : κ) (es : List (κ × ν)) :
    es.lookup k = (find? Prod.fst k es).map Prod.snd := by
  induction es with
  | nil => rfl
  | cons e es ih =>
      rw [List.lookup_cons, find_cons, ih]
      by_cases hk : e.1 = k
      · simp [hk]
      · rw [beq_false_of_ne (Ne.symm hk), if_neg hk]

/-- The lookup of a list of pairs sees a put as a search by key does. -/
theorem lookup_put {ν : Type} (es : List (κ × ν)) (k l : κ) (v : ν) :
    (put Prod.fst (k, v) es).lookup l = if k = l then some v else es.lookup l := by
  rw [lookup_eq_find, find_put, lookup_eq_find]
  by_cases hk : k = l <;> simp [hk]

/-- With one pair for each key, the lookup finds exactly the pairs of the list. -/
theorem lookup_eq_some_iff_mem {ν : Type} {es : List (κ × ν)} (h : (es.map Prod.fst).Nodup)
    (k : κ) (v : ν) : es.lookup k = some v ↔ (k, v) ∈ es := by
  rw [lookup_eq_find, Option.map_eq_some_iff]
  constructor
  · rintro ⟨e, he, rfl⟩
    obtain ⟨rfl, hmem⟩ := find_some_key he
    exact hmem
  · intro hmem
    exact ⟨(k, v), find_of_mem h hmem, rfl⟩

/-- A change of the values commutes with the lookup. -/
theorem lookup_map_snd {ν μ : Type} (f : ν → μ) (es : List (κ × ν)) (k : κ) :
    (es.map fun e => (e.1, f e.2)).lookup k = (es.lookup k).map f := by
  induction es with
  | nil => rfl
  | cons e es ih =>
      rw [List.map_cons, List.lookup_cons, List.lookup_cons, ih]
      cases k == e.1 <;> rfl

theorem lookup_map_key {ν : Type} (f : κ → ν) (ks : List κ) (k : κ) :
    (ks.map fun k => (k, f k)).lookup k = if k ∈ ks then some (f k) else none := by
  induction ks with
  | nil => rfl
  | cons l ks ih =>
      rw [List.map_cons, List.lookup_cons, ih]
      by_cases hk : k = l
      · simp [hk]
      · simp [hk, beq_false_of_ne hk]

end Keyed

/-- Pairs of a key and a value in the order in which the keys first appeared. -/
structure Table (κ ν : Type) where
  entries : List (κ × ν) := []
deriving DecidableEq, Repr

namespace Table

variable {κ ν : Type} [DecidableEq κ]

/-- The table without entries. -/
def empty : Table κ ν := ⟨[]⟩

instance : Inhabited (Table κ ν) := ⟨empty⟩

/-- The keys in the order in which they first appeared. -/
def keys (t : Table κ ν) : List κ := t.entries.map Prod.fst

/-- The value under a key. -/
def get? (t : Table κ ν) (k : κ) : Option ν := (Keyed.find? Prod.fst k t.entries).map Prod.snd

/-- A known key keeps its place and takes the new value. -/
def put (t : Table κ ν) (k : κ) (v : ν) : Table κ ν := ⟨Keyed.put Prod.fst (k, v) t.entries⟩

/-- Puts the entries of a list one after another, so the last value of a key wins. -/
def putAll (t : Table κ ν) (entries : List (κ × ν)) : Table κ ν :=
  entries.foldl (fun t e => t.put e.1 e.2) t

/-- The table of some entries, of which the last one under a key counts. -/
def ofList (entries : List (κ × ν)) : Table κ ν := empty.putAll entries

@[simp] theorem get_empty (k : κ) : (empty : Table κ ν).get? k = none := rfl

theorem get_eq_lookup (t : Table κ ν) (k : κ) : t.get? k = t.entries.lookup k :=
  (Keyed.lookup_eq_find k t.entries).symm

/-- After a put, its own key gives the new value and every other key the old one. -/
theorem get_put (t : Table κ ν) (k : κ) (v : ν) (k' : κ) :
    (t.put k v).get? k' = if k = k' then some v else t.get? k' := by
  by_cases h : k = k' <;> simp [put, get?, Keyed.find_put, h]

/-- The last entry written under a key is the one that is read. -/
theorem get_putAll (t : Table κ ν) (entries : List (κ × ν)) (k : κ) :
    (t.putAll entries).get? k = (entries.reverse.lookup k).or (t.get? k) := by
  induction entries generalizing t with
  | nil => rfl
  | cons e entries ih =>
      obtain ⟨l, v⟩ := e
      have hstep : (t.putAll ((l, v) :: entries)).get? k = ((t.put l v).putAll entries).get? k :=
        rfl
      rw [hstep, ih, get_put, List.reverse_cons, List.lookup_append, Option.or_assoc]
      by_cases hk : l = k
      · simp [hk]
      · have hne : (k == l) = false := by simpa using fun he : k = l => hk he.symm
        simp [hk, List.lookup_cons, hne]

/-- In a table made from entries the last value of a key counts. -/
theorem get_ofList (entries : List (κ × ν)) (k : κ) :
    (ofList entries).get? k = entries.reverse.lookup k := by
  rw [ofList, get_putAll, get_empty, Option.or_none]

theorem keys_put (t : Table κ ν) (k : κ) (v : ν) :
    (t.put k v).keys = if k ∈ t.keys then t.keys else t.keys ++ [k] :=
  Keyed.keys_put Prod.fst (k, v) t.entries

theorem get_isSome_iff (t : Table κ ν) (k : κ) : (t.get? k).isSome = true ↔ k ∈ t.keys := by
  simpa [get?, keys] using Keyed.find_isSome_iff Prod.fst k t.entries

theorem nodup_keys_put {t : Table κ ν} (h : t.keys.Nodup) (k : κ) (v : ν) :
    (t.put k v).keys.Nodup := Keyed.nodup_keys_put h (k, v)

theorem nodup_keys_putAll {t : Table κ ν} (h : t.keys.Nodup) (entries : List (κ × ν)) :
    (t.putAll entries).keys.Nodup := by
  induction entries generalizing t with
  | nil => exact h
  | cons e entries ih => exact ih (nodup_keys_put h e.1 e.2)

/-- Entries of other keys may be put before or after a replacement. -/
theorem put_putAll {t : Table κ ν} {k : κ} (ht : k ∈ t.keys) {entries : List (κ × ν)}
    (hk : k ∉ entries.map Prod.fst) (v : ν) :
    (t.putAll entries).put k v = (t.put k v).putAll entries := by
  induction entries generalizing t with
  | nil => rfl
  | cons e entries ih =>
      obtain ⟨hne, hrest⟩ : k ≠ e.1 ∧ k ∉ entries.map Prod.fst := by
        simpa only [List.map_cons, List.mem_cons, not_or] using hk
      have hmem : k ∈ (t.put e.1 e.2).keys := by
        rw [keys_put]
        split
        · exact ht
        · exact List.mem_append_left _ ht
      have hcomm : (t.put e.1 e.2).put k v = (t.put k v).put e.1 e.2 :=
        congrArg Table.mk (Keyed.put_put_comm (x := (k, v)) (y := e) hne ht)
      calc ((t.put e.1 e.2).putAll entries).put k v
          = ((t.put e.1 e.2).put k v).putAll entries := ih hmem hrest
        _ = ((t.put k v).put e.1 e.2).putAll entries := by rw [hcomm]

/-- Putting all entries of a table after a further one is putting that one last. -/
theorem putAll_put {e : Table κ ν} (he : e.keys.Nodup) (t : Table κ ν) (k : κ) (v : ν) :
    t.putAll (e.put k v).entries = (t.putAll e.entries).put k v := by
  obtain ⟨entries⟩ := e
  change (entries.map Prod.fst).Nodup at he
  change t.putAll (Keyed.put Prod.fst (k, v) entries) = (t.putAll entries).put k v
  induction entries generalizing t with
  | nil => rfl
  | cons y ys ih =>
      obtain ⟨hy, hys⟩ := List.nodup_cons.mp he
      by_cases hk : y.1 = k
      · subst hk
        have hmem : y.1 ∈ (t.put y.1 y.2).keys := by
          rw [← get_isSome_iff, get_put, if_pos rfl]
          rfl
        have hself : (t.put y.1 y.2).put y.1 v = t.put y.1 v :=
          congrArg Table.mk
            (Keyed.put_put_self (x := (y.1, v)) (y := (y.1, y.2)) rfl t.entries)
        rw [Keyed.put, if_pos rfl]
        calc (t.put y.1 v).putAll ys
            = ((t.put y.1 y.2).put y.1 v).putAll ys := by rw [hself]
          _ = ((t.put y.1 y.2).putAll ys).put y.1 v := (put_putAll hmem hy v).symm
      · rw [Keyed.put, if_neg hk]
        exact ih (t.put y.1 y.2) hys

end Table

end SpatialDiagram
