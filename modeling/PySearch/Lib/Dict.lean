import Mathlib.Data.List.Nodup
import Mathlib.Data.List.Perm.Basic
import Mathlib.Algebra.BigOperators.Group.List.Basic
import Mathlib.Algebra.GroupWithZero.Nat

-- A dictionary that remembers the order in which its keys were first assigned.
-- Assigning to a present key keeps the key's place, assigning to a new key appends it.
structure Dict (κ ν : Type*) where
  entries : List (κ × ν)
  nodup : (entries.map Prod.fst).Nodup

namespace Dict

variable {κ ν μ : Type*}

def empty : Dict κ ν := ⟨[], List.nodup_nil⟩

def keys (d : Dict κ ν) : List κ := d.entries.map Prod.fst

def values (d : Dict κ ν) : List ν := d.entries.map Prod.snd

def size (d : Dict κ ν) : Nat := d.entries.length

instance [DecidableEq κ] [DecidableEq ν] : DecidableEq (Dict κ ν) := fun a b =>
  decidable_of_iff (a.entries = b.entries)
    ⟨fun h => by cases a; cases b; simpa using h, fun h => h ▸ rfl⟩

variable [DecidableEq κ]

def lookup (key : κ) : List (κ × ν) → Option ν
  | [] => none
  | (other, value) :: rest => if other = key then some value else lookup key rest

def assign (key : κ) (value : ν) : List (κ × ν) → List (κ × ν)
  | [] => [(key, value)]
  | (other, previous) :: rest =>
      if other = key then (other, value) :: rest
      else (other, previous) :: assign key value rest

def discard (key : κ) (entries : List (κ × ν)) : List (κ × ν) :=
  entries.filter fun entry => entry.1 ≠ key

private theorem mem_keys_assign (key : κ) (value : ν) (entries : List (κ × ν)) (other : κ) :
    other ∈ (assign key value entries).map Prod.fst ↔
      other = key ∨ other ∈ entries.map Prod.fst := by
  induction entries with
  | nil => simp [assign]
  | cons entry rest ih =>
      obtain ⟨head, previous⟩ := entry
      by_cases he : head = key
      · subst head
        simp [assign]
      · simp only [assign, he, if_false, List.map_cons, List.mem_cons, ih]
        tauto

private theorem nodup_assign (key : κ) (value : ν) (entries : List (κ × ν))
    (h : (entries.map Prod.fst).Nodup) : ((assign key value entries).map Prod.fst).Nodup := by
  induction entries with
  | nil => simp [assign]
  | cons entry rest ih =>
      obtain ⟨head, previous⟩ := entry
      simp only [List.map_cons, List.nodup_cons] at h
      by_cases he : head = key
      · simpa only [assign, he, if_true, List.map_cons, List.nodup_cons] using he ▸ h
      · simp only [assign, he, if_false, List.map_cons, List.nodup_cons, mem_keys_assign]
        exact ⟨by tauto, ih h.2⟩

private theorem nodup_discard (key : κ) (entries : List (κ × ν))
    (h : (entries.map Prod.fst).Nodup) : ((discard key entries).map Prod.fst).Nodup :=
  h.sublist (List.filter_sublist.map Prod.fst)

def get? (d : Dict κ ν) (key : κ) : Option ν := lookup key d.entries

def getD (d : Dict κ ν) (key : κ) (default : ν) : ν := (d.get? key).getD default

def contains (d : Dict κ ν) (key : κ) : Bool := (d.get? key).isSome

def set (d : Dict κ ν) (key : κ) (value : ν) : Dict κ ν :=
  ⟨assign key value d.entries, nodup_assign key value d.entries d.nodup⟩

def erase (d : Dict κ ν) (key : κ) : Dict κ ν :=
  ⟨discard key d.entries, nodup_discard key d.entries d.nodup⟩

-- A dictionary comprehension: later occurrences of a key overwrite earlier ones.
def comprehension (items : List μ) (key : μ → κ) (value : μ → ν) : Dict κ ν :=
  items.foldl (fun d item => d.set (key item) (value item)) empty

@[simp] theorem get?_empty (key : κ) : (empty : Dict κ ν).get? key = none := rfl

theorem get?_set (d : Dict κ ν) (key other : κ) (value : ν) :
    (d.set key value).get? other = if other = key then some value else d.get? other := by
  obtain ⟨entries, h⟩ := d
  simp only [get?, set]
  clear h
  induction entries with
  | nil => by_cases ho : other = key <;> simp [assign, lookup, ho, Ne.symm]
  | cons entry rest ih =>
      obtain ⟨head, previous⟩ := entry
      by_cases he : head = key
      · subst head
        by_cases ho : other = key <;> simp [assign, lookup, ho, Ne.symm]
      · by_cases ho : head = other
        · subst head
          simp [assign, lookup, he]
        · simpa [assign, lookup, he, ho] using ih

@[simp] theorem get?_set_self (d : Dict κ ν) (key : κ) (value : ν) :
    (d.set key value).get? key = some value := by
  simp [get?_set]

theorem get?_erase (d : Dict κ ν) (key other : κ) :
    (d.erase key).get? other = if other = key then none else d.get? other := by
  obtain ⟨entries, h⟩ := d
  simp only [get?, erase, discard]
  clear h
  induction entries with
  | nil => simp [lookup]
  | cons entry rest ih =>
      obtain ⟨head, value⟩ := entry
      by_cases he : head = key
      · subst head
        by_cases ho : other = key
        · simpa [lookup, ho] using ih
        · simpa [lookup, ho, Ne.symm ho] using ih
      · by_cases ho : head = other
        · subst head
          simp [lookup, he]
        · simpa [lookup, he, ho] using ih

theorem mem_entries {d : Dict κ ν} {key : κ} {value : ν} :
    (key, value) ∈ d.entries ↔ d.get? key = some value := by
  obtain ⟨entries, h⟩ := d
  simp only [get?]
  induction entries with
  | nil => simp [lookup]
  | cons entry rest ih =>
      obtain ⟨head, previous⟩ := entry
      simp only [List.map_cons, List.nodup_cons] at h
      by_cases he : head = key
      · subst head
        have hn : (key, value) ∉ rest := fun hm => h.1 (List.mem_map.mpr ⟨_, hm, rfl⟩)
        simp [lookup, hn, eq_comm]
      · simpa [lookup, he, Ne.symm he] using ih h.2

theorem mem_keys {d : Dict κ ν} {key : κ} : key ∈ d.keys ↔ (d.get? key).isSome := by
  rw [Option.isSome_iff_exists]
  constructor
  · intro h
    obtain ⟨⟨_, value⟩, hm, rfl⟩ := List.mem_map.mp h
    exact ⟨value, mem_entries.mp hm⟩
  · rintro ⟨value, h⟩
    exact List.mem_map.mpr ⟨_, mem_entries.mpr h, rfl⟩

theorem mem_values {d : Dict κ ν} {value : ν} :
    value ∈ d.values ↔ ∃ key, d.get? key = some value := by
  constructor
  · intro h
    obtain ⟨⟨key, _⟩, hm, rfl⟩ := List.mem_map.mp h
    exact ⟨key, mem_entries.mp hm⟩
  · rintro ⟨key, h⟩
    exact List.mem_map.mpr ⟨_, mem_entries.mpr h, rfl⟩

@[simp] theorem contains_iff {d : Dict κ ν} {key : κ} :
    d.contains key = true ↔ (d.get? key).isSome := Iff.rfl

theorem size_eq_zero_iff {d : Dict κ ν} : d.size = 0 ↔ ∀ key, d.get? key = none := by
  constructor
  · intro h key
    have he : d.entries = [] := List.length_eq_zero_iff.mp h
    simp [get?, he, lookup]
  · intro h
    apply List.length_eq_zero_iff.mpr
    apply List.eq_nil_iff_forall_not_mem.mpr
    rintro ⟨key, value⟩ hm
    simpa [h key] using mem_entries.mp hm

omit [DecidableEq κ] in
theorem keys_nodup (d : Dict κ ν) : d.keys.Nodup := d.nodup

omit [DecidableEq κ] in
theorem entries_nodup (d : Dict κ ν) : d.entries.Nodup := d.nodup.of_map _

-- Two dictionaries that answer every lookup alike hold the same entries up to order.
theorem entries_perm {d e : Dict κ ν} (h : ∀ key, d.get? key = e.get? key) :
    d.entries.Perm e.entries := by
  apply (List.perm_ext_iff_of_nodup d.entries_nodup e.entries_nodup).mpr
  rintro ⟨key, value⟩
  rw [mem_entries, mem_entries, h key]

theorem values_perm {d e : Dict κ ν} (h : ∀ key, d.get? key = e.get? key) :
    d.values.Perm e.values := (entries_perm h).map _

theorem size_eq {d e : Dict κ ν} (h : ∀ key, d.get? key = e.get? key) : d.size = e.size :=
  (entries_perm h).length_eq

-- Removing a present key takes exactly its entry away.
theorem entries_perm_erase {d : Dict κ ν} {key : κ} {value : ν} (h : d.get? key = some value) :
    d.entries.Perm ((key, value) :: (d.erase key).entries) := by
  have hn : (key, value) ∉ (d.erase key).entries := by
    simp [mem_entries, get?_erase]
  apply (List.perm_ext_iff_of_nodup d.entries_nodup
    (List.nodup_cons.mpr ⟨hn, (d.erase key).entries_nodup⟩)).mpr
  rintro ⟨other, found⟩
  rw [List.mem_cons, mem_entries, mem_entries, get?_erase, Prod.mk.injEq]
  by_cases ho : other = key
  · subst other
    simp [h, eq_comm]
  · simp [ho]

theorem set_entries_perm (d : Dict κ ν) (key : κ) (value : ν) :
    (d.set key value).entries.Perm ((key, value) :: (d.erase key).entries) := by
  have hp := entries_perm_erase (get?_set_self d key value)
  apply hp.trans
  apply List.Perm.cons
  apply entries_perm
  intro other
  simp only [get?_erase, get?_set]
  by_cases ho : other = key <;> simp [ho]

theorem size_erase {d : Dict κ ν} {key : κ} {value : ν} (h : d.get? key = some value) :
    d.size = (d.erase key).size + 1 := (entries_perm_erase h).length_eq

theorem size_set_of_some {d : Dict κ ν} {key : κ} {previous : ν} (h : d.get? key = some previous)
    (value : ν) : (d.set key value).size = d.size :=
  ((set_entries_perm d key value).length_eq).trans (size_erase h).symm

theorem get?_erase_of_none {d : Dict κ ν} {key : κ} (h : d.get? key = none) (other : κ) :
    (d.erase key).get? other = d.get? other := by
  rw [get?_erase]
  split_ifs with ho
  · rw [ho, h]
  · rfl

theorem size_set_of_none {d : Dict κ ν} {key : κ} (h : d.get? key = none) (value : ν) :
    (d.set key value).size = d.size + 1 :=
  ((set_entries_perm d key value).length_eq).trans
    (congrArg (· + 1) (size_eq (get?_erase_of_none h)))

-- A dictionary whose lookups are computed from another one's holds what that one's
-- entries give, up to order.
theorem entries_perm_bind {d : Dict κ ν} {e : Dict κ μ} {f : μ → Option ν}
    (h : ∀ key, d.get? key = (e.get? key).bind f) :
    d.entries.Perm (e.entries.filterMap fun entry =>
      (f entry.2).map fun value => (entry.1, value)) := by
  have hkeys : ((e.entries.filterMap fun entry =>
      (f entry.2).map fun value => (entry.1, value)).map Prod.fst).Sublist e.keys := by
    rw [keys]
    induction e.entries with
    | nil => simp
    | cons entry rest ih =>
        cases hf : f entry.2 with
        | none => simpa [hf] using ih.cons _
        | some value => simpa [hf] using ih
  have hnodup := (e.keys_nodup.sublist hkeys).of_map _
  apply (List.perm_ext_iff_of_nodup d.entries_nodup hnodup).mpr
  rintro ⟨key, value⟩
  rw [mem_entries, h, Option.bind_eq_some_iff, List.mem_filterMap]
  constructor
  · rintro ⟨item, hitem, hvalue⟩
    exact ⟨(key, item), mem_entries.mpr hitem, by simp [hvalue]⟩
  · rintro ⟨⟨other, item⟩, hitem, hvalue⟩
    simp only [Option.map_eq_some_iff, Prod.mk.injEq] at hvalue
    obtain ⟨found, hf, rfl, rfl⟩ := hvalue
    exact ⟨item, mem_entries.mp hitem, hf⟩

theorem get?_foldl_set (items : List μ) (key : μ → κ) (value : μ → ν)
    (d : Dict κ ν) (other : κ) (hdet : ∀ a ∈ items, ∀ b ∈ items, key a = key b → value a = value b) :
    (items.foldl (fun d item => d.set (key item) (value item)) d).get? other =
      match items.find? (fun item => key item = other) with
      | some item => some (value item)
      | none => d.get? other := by
  induction items generalizing d with
  | nil => rfl
  | cons item rest ih =>
      rw [List.foldl_cons, ih _ fun a ha b hb => hdet a (.tail _ ha) b (.tail _ hb)]
      by_cases hk : key item = other
      · cases hf : rest.find? (fun item => key item = other) with
        | none => simp [hk]
        | some found =>
            have hm := List.mem_of_find?_eq_some hf
            have hkey : key found = other := by simpa using List.find?_some hf
            simp [hk, hdet item (.head _) found (.tail _ hm) (hk.trans hkey.symm)]
      · simp [hk, Ne.symm hk, get?_set]

-- Assigning the entries of a dictionary one by one, in any order, gives it back.
theorem get?_foldl_entries {d : Dict κ ν} {order : List (κ × ν)} (h : order.Perm d.entries)
    (key : κ) : (order.foldl (fun acc entry => acc.set entry.1 entry.2) empty).get? key =
      d.get? key := by
  have hget : ∀ entry ∈ order, d.get? entry.1 = some entry.2 := fun entry he =>
    mem_entries.mp (h.mem_iff.mp he)
  have hdet : ∀ a ∈ order, ∀ b ∈ order, a.1 = b.1 → a.2 = b.2 := by
    intro a ha b hb hk
    have hsame : some a.2 = some b.2 := by rw [← hget a ha, ← hget b hb, hk]
    exact Option.some.inj hsame
  rw [get?_foldl_set order Prod.fst Prod.snd empty key hdet]
  cases hf : order.find? (fun entry => entry.1 = key) with
  | some entry =>
      have hk : entry.1 = key := by simpa using List.find?_some hf
      exact hk ▸ (hget entry (List.mem_of_find?_eq_some hf)).symm
  | none =>
      cases hd : d.get? key with
      | none => rfl
      | some value =>
          have hm := h.mem_iff.mpr (mem_entries.mpr hd)
          exact absurd (by simp) (List.find?_eq_none.mp hf _ hm)

-- A loop over the items of one dictionary that updates another key by key.
theorem get?_foldl_update (d : Dict κ μ) (f : κ → μ → Option ν → ν) (acc : Dict κ ν) (key : κ) :
    (d.entries.foldl (fun acc entry => acc.set entry.1 (f entry.1 entry.2 (acc.get? entry.1)))
      acc).get? key =
      match d.get? key with
      | none => acc.get? key
      | some value => some (f key value (acc.get? key)) := by
  obtain ⟨entries, hnodup⟩ := d
  simp only [get?]
  induction entries generalizing acc with
  | nil => rfl
  | cons entry rest ih =>
      obtain ⟨head, value⟩ := entry
      obtain ⟨hhead, hrest⟩ := List.nodup_cons.mp hnodup
      rw [List.foldl_cons]
      refine (ih _ hrest).trans ?_
      by_cases hk : head = key
      · subst hk
        have hnone : lookup head rest = none := by
          simpa [keys, get?] using mt (@mem_keys _ _ _ ⟨rest, hrest⟩ head).mpr hhead
        simp only [hnone, lookup, if_true]
        exact get?_set_self acc head (f head value (acc.get? head))
      · have hother := get?_set acc head key (f head value (acc.get? head))
        rw [if_neg (Ne.symm hk)] at hother
        simp only [get?] at hother
        simp [lookup, hk, hother]

-- The same loop over items that have a key each, none of them twice.
theorem get?_foldl_keyed (items : List μ) (key : μ → κ) (f : μ → Option ν → ν)
    (hnodup : (items.map key).Nodup) (acc : Dict κ ν) (other : κ) :
    (items.foldl (fun acc item => acc.set (key item) (f item (acc.get? (key item)))) acc).get?
        other =
      match items.find? (fun item => key item = other) with
      | none => acc.get? other
      | some item => some (f item (acc.get? other)) := by
  induction items generalizing acc with
  | nil => rfl
  | cons item rest ih =>
      obtain ⟨hitem, hrest⟩ := List.nodup_cons.mp hnodup
      rw [List.foldl_cons, ih hrest]
      by_cases hk : key item = other
      · have hnone : rest.find? (fun item => key item = other) = none := by
          rw [List.find?_eq_none]
          intro found hfound he
          have hsame : key found = key item := (of_decide_eq_true he).trans hk.symm
          exact hitem (hsame ▸ List.mem_map_of_mem hfound)
        simp [hnone, hk]
      · simp [hk, Ne.symm hk, get?_set]

theorem get?_comprehension (items : List κ) (value : κ → ν) (other : κ) :
    (comprehension items id value).get? other =
      if other ∈ items then some (value other) else none := by
  rw [comprehension, get?_foldl_set items id value empty other (by simp +contextual)]
  by_cases hm : other ∈ items
  · cases hf : items.find? (fun item => id item = other) with
    | none =>
        rw [List.find?_eq_none] at hf
        exact absurd (by simp) (hf other hm)
    | some found =>
        have hk : found = other := by simpa using List.find?_some hf
        simp [hm, hk]
  · have hf : items.find? (fun item => id item = other) = none := by
      rw [List.find?_eq_none]
      intro item hi he
      exact hm ((of_decide_eq_true he : item = other) ▸ hi)
    rw [hf, if_neg hm, get?_empty]

end Dict

-- A finite set together with the order in which it is iterated.
structure FrozenSet (κ : Type*) where
  elems : List κ
  nodup : elems.Nodup

namespace FrozenSet

variable {κ ν : Type*}

instance : Membership κ (FrozenSet κ) := ⟨fun set key => key ∈ set.elems⟩

instance [DecidableEq κ] (key : κ) (set : FrozenSet κ) : Decidable (key ∈ set) :=
  inferInstanceAs (Decidable (key ∈ set.elems))

def ofKeys (d : Dict κ ν) : FrozenSet κ := ⟨d.keys, d.nodup⟩

theorem mem_ofKeys [DecidableEq κ] {d : Dict κ ν} {key : κ} :
    key ∈ ofKeys d ↔ (d.get? key).isSome := Dict.mem_keys

-- Equality of sets, whatever the order.
def same [DecidableEq κ] (set other : FrozenSet κ) : Bool :=
  set.elems.all (· ∈ other) && other.elems.all (· ∈ set)

theorem same_iff [DecidableEq κ] {set other : FrozenSet κ} :
    set.same other = true ↔ ∀ key, key ∈ set ↔ key ∈ other := by
  rw [same, Bool.and_eq_true, List.all_eq_true, List.all_eq_true]
  constructor
  · rintro ⟨hsub, hsup⟩ key
    exact ⟨fun hk => of_decide_eq_true (hsub key hk), fun hk => of_decide_eq_true (hsup key hk)⟩
  · intro h
    exact ⟨fun key hk => decide_eq_true ((h key).mp hk), fun key hk => decide_eq_true ((h key).mpr hk)⟩

end FrozenSet
