import Gamebook.Table
import Mathlib.Data.List.Forall2
import Mathlib.Data.List.Perm.Subperm

/-!
# Tables without repeated keys

* `Table.put_of_not_mem`    : a new key comes last.
* `Table.merge_of_disjoint` : entries under new keys come last, as they are.
* `Table.ofList_of_nodup`   : a list without repeated keys is its own table.
* `Table.nodup_put`, `Table.nodup_merge` : no key is repeated by a change.
* `Table.nodup_of_length_ofList` : a list that is as long as its table has no repeated keys.
* `Table.get?_append`, `Table.get?_merge`, `Table.get?_filterKeys` : look-up in tables put together.
* `Table.get?_filter`, `Table.get?_erase` : look-up when entries were removed.
* `Table.merge_of_get?`, `Table.merge_merge` : entries that are there already change nothing.
* `Table.filterKeys_merge`   : keys are left out before or after merging.
* `Table.keys_of_forall₂`, `Table.get?_of_forall₂` : tables with related values under the same keys.
* `Table.mem_modify`, `Table.put_eq_modify`, `Table.exists_modify_eq`, `Table.mapValues_modify` : a
  table with one value changed.
-/

set_option autoImplicit false

namespace Gamebook.Table

universe u v

variable {α : Type u} {β : Type v}

@[simp] theorem keys_nil : keys ([] : Table α) = [] := rfl

@[simp] theorem keys_cons (e : String × α) (t : Table α) : keys (e :: t) = e.1 :: keys t := rfl

@[simp] theorem keys_append (t more : Table α) : keys (t ++ more) = keys t ++ keys more :=
  List.map_append

@[simp] theorem keys_mapValues (t : Table α) (f : α → β) : keys (mapValues t f) = keys t := by
  simp [keys, mapValues]

theorem put_of_not_mem {t : Table α} {key : String} (h : key ∉ keys t) (value : α) :
    put t key value = t ++ [(key, value)] := by
  induction t with
  | nil => rfl
  | cons e t ih =>
    obtain ⟨k, x⟩ := e
    simp only [keys_cons, List.mem_cons, not_or] at h
    rw [put, if_neg (by simpa using Ne.symm h.1), ih h.2, List.cons_append]

theorem merge_cons (t : Table α) (e : String × α) (more : Table α) :
    merge t (e :: more) = merge (t.put e.1 e.2) more := rfl

/-- Entries under new keys come last, as they are. -/
theorem merge_of_disjoint {t more : Table α} (h : (keys (t ++ more)).Nodup) :
    merge t more = t ++ more := by
  induction more generalizing t with
  | nil => exact (List.append_nil t).symm
  | cons e more ih =>
    have hnew : e.1 ∉ keys t := by
      rw [keys_append, keys_cons, List.nodup_append] at h
      intro hmem
      exact h.2.2 e.1 hmem e.1 List.mem_cons_self rfl
    have happend : t ++ e :: more = t ++ [e] ++ more := by simp
    rw [merge_cons, put_of_not_mem hnew, ih (by rw [← happend]; exact h), ← happend]

/-- A list without repeated keys is its own table. -/
theorem ofList_of_nodup {entries : List (String × α)} (h : (keys entries).Nodup) :
    ofList entries = entries := merge_of_disjoint (by simpa using h)

/-! ## No key is repeated -/

theorem nodup_put {t : Table α} (h : (keys t).Nodup) (key : String) (value : α) :
    (keys (put t key value)).Nodup := by
  rw [keys_put]
  split
  · exact h
  · rename_i hnew
    exact List.nodup_append.2 ⟨h, by simp, by
      intro a ha b hb
      rw [List.mem_singleton] at hb
      rintro rfl
      exact hnew (hb ▸ ha)⟩

theorem nodup_merge {t : Table α} (h : (keys t).Nodup) (more : Table α) :
    (keys (merge t more)).Nodup := by
  induction more generalizing t with
  | nil => exact h
  | cons e more ih => exact ih (nodup_put h e.1 e.2)

theorem nodup_ofList (entries : List (String × α)) : (keys (ofList entries)).Nodup :=
  nodup_merge (by simp) entries

theorem mem_put {t : Table α} {key : String} {value : α} {e : String × α}
    (h : e ∈ put t key value) : e = (key, value) ∨ e ∈ t := by
  induction t with
  | nil => exact .inl (List.mem_singleton.1 h)
  | cons first t ih =>
    obtain ⟨k, x⟩ := first
    unfold put at h
    split at h
    · rename_i hk
      rcases List.mem_cons.1 h with rfl | h
      · exact .inl (by rw [eq_of_beq hk])
      · exact .inr (List.mem_cons_of_mem _ h)
    · rcases List.mem_cons.1 h with rfl | h
      · exact .inr List.mem_cons_self
      · exact (ih h).imp_right (List.mem_cons_of_mem _)

theorem mem_merge {t more : Table α} {e : String × α} (h : e ∈ merge t more) :
    e ∈ t ∨ e ∈ more := by
  induction more generalizing t with
  | nil => exact .inl h
  | cons first more ih =>
    rcases ih h with h | h
    · rcases mem_put h with rfl | h
      · exact .inr List.mem_cons_self
      · exact .inl h
    · exact .inr (List.mem_cons_of_mem _ h)

theorem mem_ofList {entries : List (String × α)} {e : String × α} (h : e ∈ ofList entries) :
    e ∈ entries := (mem_merge h).resolve_left (by simp)

/-- A list that is as long as its table has no repeated keys. -/
theorem nodup_of_length_ofList {entries : List (String × α)}
    (h : entries.length ≤ (ofList entries).length) : (keys entries).Nodup := by
  have hnodup := nodup_ofList entries
  have hsub : keys (ofList entries) ⊆ keys entries := List.map_subset _ fun e he => mem_ofList he
  have hperm := (List.subperm_of_subset hnodup hsub).perm_of_length_le (by simpa [keys] using h)
  exact hperm.nodup_iff.1 hnodup

/-! ## Look-up -/

theorem get?_append (t more : Table α) (key : String) :
    get? (t ++ more) key = (get? t key).or (get? more key) := by
  induction t with
  | nil => rfl
  | cons e t ih =>
    obtain ⟨k, x⟩ := e
    rw [List.cons_append, get?_cons, get?_cons, ih]
    split <;> rfl

theorem get?_of_not_mem {t : Table α} {key : String} (h : key ∉ keys t) : get? t key = none := by
  induction t with
  | nil => rfl
  | cons e t ih =>
    obtain ⟨k, x⟩ := e
    simp only [keys_cons, List.mem_cons, not_or] at h
    rw [get?_cons, if_neg (by simpa using h.1), ih h.2]

theorem mem_of_get? {t : Table α} {key : String} {x : α} (h : get? t key = some x) :
    (key, x) ∈ t := by
  induction t with
  | nil => cases h
  | cons e t ih =>
    obtain ⟨k, y⟩ := e
    rw [get?_cons] at h
    split at h
    · rename_i hk
      cases h
      rw [eq_of_beq hk]
      exact List.mem_cons_self
    · exact List.mem_cons_of_mem _ (ih h)

theorem get?_mapValues (t : Table α) (f : α → β) (key : String) :
    get? (mapValues t f) key = (get? t key).map f := by
  induction t with
  | nil => rfl
  | cons e t ih =>
    obtain ⟨k, x⟩ := e
    have hcons : mapValues ((k, x) :: t) f = (k, f x) :: mapValues t f := rfl
    rw [hcons, get?_cons, get?_cons, ih]
    split <;> rfl

theorem has_iff (t : Table α) (key : String) : t.has key = true ↔ key ∈ keys t := by
  unfold has
  constructor
  · intro h
    obtain ⟨x, hx⟩ := Option.isSome_iff_exists.1 h
    exact List.mem_map_of_mem (mem_of_get? hx)
  · intro h
    induction t with
    | nil => cases h
    | cons e t ih =>
      obtain ⟨k, x⟩ := e
      rw [get?_cons]
      split
      · rfl
      · rename_i hk
        rw [keys_cons, List.mem_cons] at h
        exact ih (h.resolve_left (by simpa using hk))

theorem get?_eq_none_iff {t : Table α} {key : String} : get? t key = none ↔ key ∉ keys t := by
  rw [← has_iff, has, ← Option.not_isSome_iff_eq_none]

/-- Without repeated keys every entry is found. -/
theorem get?_of_mem {t : Table α} (h : (keys t).Nodup) {e : String × α} (he : e ∈ t) :
    get? t e.1 = some e.2 := by
  induction t with
  | nil => cases he
  | cons first t ih =>
    obtain ⟨k, x⟩ := first
    rw [keys_cons, List.nodup_cons] at h
    rw [get?_cons]
    rcases List.mem_cons.1 he with rfl | he
    · rw [if_pos (beq_self_eq_true _)]
    · have hmem : e.1 ∈ keys t := List.mem_map_of_mem he
      have hne : e.1 ≠ k := fun hk => h.1 (hk ▸ hmem)
      rw [if_neg (by simpa using hne), ih h.2 he]

theorem keys_filter_sublist (t : Table α) (p : String × α → Bool) :
    (keys (t.filter p)).Sublist (keys t) := List.filter_sublist.map _

/-- Of the entries that are kept, the value under a key stays. -/
theorem get?_filter {t : Table α} (h : (keys t).Nodup) (p : String × α → Bool) (key : String) :
    get? (t.filter p) key = (get? t key).filter fun x => p (key, x) := by
  have hsublist := keys_filter_sublist t p
  cases hget : get? t key with
  | none =>
    rw [get?_eq_none_iff] at hget
    rw [Option.filter_none, get?_eq_none_iff]
    exact fun hmem => hget (hsublist.subset hmem)
  | some x =>
    have hmem := mem_of_get? hget
    by_cases hx : p (key, x) = true
    · rw [Option.filter_some, if_pos hx]
      exact get?_of_mem (h.sublist hsublist) (e := (key, x)) (List.mem_filter.2 ⟨hmem, hx⟩)
    · rw [Option.filter_some, if_neg hx, get?_eq_none_iff]
      intro hkey
      obtain ⟨⟨k, y⟩, he, rfl⟩ := List.mem_map.1 hkey
      obtain ⟨he, hy⟩ := List.mem_filter.1 he
      cases (get?_of_mem h he).symm.trans hget
      exact hx hy

theorem keys_erase_sublist (t : Table α) (key : String) : (keys (erase t key)).Sublist (keys t) := by
  induction t with
  | nil => exact List.Sublist.slnil
  | cons e t ih =>
    obtain ⟨k, x⟩ := e
    rw [erase]
    split
    · exact List.sublist_cons_self _ _
    · exact ih.cons_cons k

/-- A removed key is free, every other key has its old value. -/
theorem get?_erase {t : Table α} (h : (keys t).Nodup) (key other : String) :
    get? (erase t key) other = if other = key then none else get? t other := by
  induction t with
  | nil =>
    rw [erase]
    split <;> rfl
  | cons e t ih =>
    obtain ⟨k, x⟩ := e
    rw [keys_cons, List.nodup_cons] at h
    rw [erase]
    by_cases hk : k = key
    · subst hk
      rw [if_pos (beq_self_eq_true _), get?_cons]
      by_cases ho : other = k
      · subst ho
        rw [if_pos rfl, get?_of_not_mem h.1]
      · rw [if_neg ho, if_neg (by simpa using ho)]
    · rw [if_neg (by simpa using hk), get?_cons, get?_cons, ih h.2]
      by_cases ho : other = key
      · subst ho
        rw [if_neg (by simpa using Ne.symm hk), if_pos rfl, if_pos rfl]
      · rw [if_neg ho, if_neg ho]

theorem get?_filterKeys (t : Table α) (p : String → Bool) (key : String) :
    get? (filterKeys t p) key = if p key then get? t key else none := by
  induction t with
  | nil =>
    rw [filterKeys, List.filter_nil]
    split <;> rfl
  | cons e t ih =>
    obtain ⟨k, x⟩ := e
    unfold filterKeys at ih ⊢
    rw [List.filter_cons, get?_cons]
    by_cases hk : key = k
    · subst hk
      dsimp only
      split
      · rw [get?_cons, if_pos (beq_self_eq_true key), if_pos (beq_self_eq_true key)]
      · rename_i hp
        rw [ih, if_neg hp]
    · have hne : ¬(key == k) = true := by simpa using hk
      dsimp only
      split
      · rw [get?_cons, if_neg hne, ih]
      · rw [ih]

/-- A merged table has the values of the second one first. -/
theorem get?_merge (t : Table α) {more : Table α} (h : (keys more).Nodup) (key : String) :
    get? (merge t more) key = (get? more key).or (get? t key) := by
  induction more generalizing t with
  | nil => rfl
  | cons e more ih =>
    obtain ⟨k, x⟩ := e
    rw [keys_cons, List.nodup_cons] at h
    rw [merge_cons, ih _ h.2, get?_put, get?_cons]
    by_cases hk : key = k
    · subst hk
      rw [get?_of_not_mem h.1, if_pos rfl, if_pos (beq_self_eq_true key)]
      rfl
    · rw [if_neg hk, if_neg (by simpa using hk)]

/-- Tables with the same keys in the same order, and the same values under them. -/
theorem ext_get? {t u : Table α} (hkeys : keys t = keys u) (h : (keys t).Nodup)
    (hget : ∀ key, get? t key = get? u key) : t = u := by
  induction t generalizing u with
  | nil => exact (List.map_eq_nil_iff.1 hkeys.symm).symm
  | cons e t ih =>
    cases u with
    | nil => cases hkeys
    | cons f u =>
      obtain ⟨k, x⟩ := e
      obtain ⟨k', y⟩ := f
      rw [keys_cons, keys_cons, List.cons.injEq] at hkeys
      obtain ⟨hk, hkeys⟩ := hkeys
      dsimp only at hk
      subst hk
      rw [keys_cons, List.nodup_cons] at h
      have hfirst := hget k
      rw [get?_cons, get?_cons, if_pos (beq_self_eq_true k), if_pos (beq_self_eq_true k),
        Option.some.injEq] at hfirst
      rw [hfirst, ih hkeys h.2]
      intro key
      by_cases hkey : key = k
      · subst hkey
        rw [get?_of_not_mem h.1, get?_of_not_mem (hkeys ▸ h.1)]
      · have hrest := hget key
        rw [get?_cons, get?_cons, if_neg (by simpa using hkey), if_neg (by simpa using hkey)] at hrest
        exact hrest

/-! ## Related tables -/

section Related

variable {R : String × α → String × β → Prop} (hR : ∀ {e f}, R e f → e.1 = f.1) {t : Table α}
  {u : Table β} (h : List.Forall₂ R t u)

include hR h

theorem keys_of_forall₂ : keys u = keys t := by
  induction h with
  | nil => rfl
  | cons hfirst _ ih => rw [keys_cons, keys_cons, hR hfirst, ih]

theorem get?_of_forall₂ {key : String} {b : β} (hget : u.get? key = some b) :
    ∃ a, t.get? key = some a ∧ R (key, a) (key, b) := by
  induction h with
  | nil => cases hget
  | @cons e f _ _ hfirst _ ih =>
    obtain ⟨k, x⟩ := e
    obtain ⟨k', y⟩ := f
    have hk : k = k' := hR hfirst
    subst hk
    rw [get?_cons] at hget ⊢
    split at hget
    · rename_i hkey
      cases hget
      exact ⟨x, by rw [if_pos hkey], by rw [eq_of_beq hkey]; exact hfirst⟩
    · rename_i hkey
      obtain ⟨a, ha, hab⟩ := ih hget
      exact ⟨a, by rw [if_neg hkey, ha], hab⟩

theorem has_of_forall₂ (key : String) : u.has key = t.has key := by
  rw [Bool.eq_iff_iff, has_iff, has_iff, keys_of_forall₂ hR h]

end Related

/-! ## Entries that are there already -/

theorem put_of_get? {t : Table α} {key : String} {x : α} (h : get? t key = some x) :
    put t key x = t := by
  induction t with
  | nil => cases h
  | cons e t ih =>
    obtain ⟨k, y⟩ := e
    rw [get?_cons] at h
    by_cases hk : key = k
    · rw [if_pos (by simpa using hk)] at h
      cases h
      rw [put, if_pos (by simpa using hk.symm)]
    · rw [if_neg (by simpa using hk)] at h
      rw [put, if_neg (by simpa using Ne.symm hk), ih h]

theorem merge_of_get? {t more : Table α} (h : ∀ e ∈ more, get? t e.1 = some e.2) :
    merge t more = t := by
  induction more with
  | nil => rfl
  | cons e more ih =>
    rw [List.forall_mem_cons] at h
    rw [merge_cons, put_of_get? h.1, ih h.2]

/-- A merged table has the keys of the first one, then the new ones. -/
theorem keys_merge (t : Table α) {more : Table α} (h : (keys more).Nodup) :
    keys (merge t more) = keys t ++ (keys more).filter fun key => key ∉ keys t := by
  induction more generalizing t with
  | nil => exact (List.append_nil _).symm
  | cons e more ih =>
    obtain ⟨k, x⟩ := e
    rw [keys_cons, List.nodup_cons] at h
    rw [merge_cons, ih _ h.2, keys_put, keys_cons, List.filter_cons]
    by_cases hk : k ∈ keys t
    · rw [if_pos hk, if_neg (by simpa using hk)]
    · rw [if_neg hk, if_pos (by simpa using hk), List.append_assoc, List.singleton_append]
      congr 2
      refine List.filter_congr fun key hkey => ?_
      have hne : key ≠ k := by
        rintro rfl
        exact h.1 hkey
      simp [hne]

/-- Merging a table into its own origin gives it back. -/
theorem merge_merge {t more : Table α} (ht : (keys t).Nodup) (hmore : (keys more).Nodup) :
    merge t (merge t more) = merge t more := by
  have hnodup := nodup_merge ht more
  refine ext_get? ?_ (nodup_merge ht _) ?_
  · rw [keys_merge t hnodup, keys_merge t hmore, List.filter_append]
    congr 1
    have hold : (keys t).filter (fun key => decide (key ∉ keys t)) = [] := by
      rw [List.filter_eq_nil_iff]
      intro key hkey
      simpa using hkey
    rw [hold, List.nil_append, List.filter_filter]
    exact List.filter_congr fun key _ => Bool.and_self _
  · intro key
    rw [get?_merge t hnodup, get?_merge t hmore]
    cases get? more key <;> cases get? t key <;> rfl

theorem filterKeys_put (t : Table α) (key : String) (x : α) (p : String → Bool) :
    filterKeys (put t key x) p =
      if p key then put (filterKeys t p) key x else filterKeys t p := by
  unfold filterKeys
  induction t with
  | nil => rw [put, List.filter_cons, List.filter_nil, put]
  | cons e t ih =>
    obtain ⟨k, y⟩ := e
    by_cases hk : k = key
    · subst hk
      by_cases hp : p k = true
      · simp [put, hp]
      · simp [put, hp]
    · rw [put, if_neg (by simpa using hk), List.filter_cons, List.filter_cons, ih]
      by_cases hp : p key = true
      · by_cases hpk : p k = true
        · simp [put, hp, hpk, hk]
        · simp [hp, hpk]
      · simp [hp]

/-- Keys that are left out anyway may be left out before. -/
theorem filterKeys_filterKeys (t : Table α) {p q : String → Bool} (h : ∀ key, q key = true → p key = true) :
    filterKeys (filterKeys t p) q = filterKeys t q := by
  unfold filterKeys
  rw [List.filter_filter]
  refine List.filter_congr fun e _ => ?_
  cases hq : q e.1 with
  | false => rfl
  | true => rw [h e.1 hq, Bool.and_self]

theorem filterKeys_merge (t more : Table α) (p : String → Bool) :
    filterKeys (merge t more) p = merge (filterKeys t p) (filterKeys more p) := by
  induction more generalizing t with
  | nil => rfl
  | cons e more ih =>
    rw [merge_cons, ih, filterKeys_put]
    unfold filterKeys
    rw [List.filter_cons]
    by_cases hp : p e.1 = true
    · rw [if_pos hp, if_pos hp, merge_cons]
    · rw [if_neg hp, if_neg hp]

/-! ## One value changed -/

theorem mem_modify {t : Table α} {key : String} {f : α → α} {e : String × α}
    (h : e ∈ modify t key f) : e ∈ t ∨ ∃ x, (key, x) ∈ t ∧ e = (key, f x) := by
  induction t with
  | nil => cases h
  | cons first t ih =>
    obtain ⟨k, x⟩ := first
    unfold modify at h
    split at h
    · rename_i hk
      rcases List.mem_cons.1 h with rfl | h
      · rw [eq_of_beq hk]
        exact .inr ⟨x, List.mem_cons_self, rfl⟩
      · exact .inl (List.mem_cons_of_mem _ h)
    · rcases List.mem_cons.1 h with rfl | h
      · exact .inl List.mem_cons_self
      · rcases ih h with h | ⟨y, hy, rfl⟩
        · exact .inl (List.mem_cons_of_mem _ h)
        · exact .inr ⟨y, List.mem_cons_of_mem _ hy, rfl⟩

/-- Putting a key that is there changes its value only. -/
theorem put_eq_modify {t : Table α} {key : String} (h : key ∈ keys t) (value : α) :
    put t key value = modify t key fun _ => value := by
  induction t with
  | nil => cases h
  | cons e t ih =>
    obtain ⟨k, x⟩ := e
    rw [put, modify]
    by_cases hk : k = key
    · rw [if_pos (by simpa using hk), if_pos (by simpa using hk)]
    · rw [keys_cons, List.mem_cons] at h
      rw [if_neg (by simpa using hk), if_neg (by simpa using hk), ih (h.resolve_left (Ne.symm hk))]

/-- What stands around an entry is left when its value is changed. -/
theorem exists_modify_eq {t : Table α} {key : String} {x : α} (h : get? t key = some x) :
    ∃ before after, t = before ++ (key, x) :: after ∧
      ∀ f : α → α, modify t key f = before ++ (key, f x) :: after := by
  induction t with
  | nil => cases h
  | cons e t ih =>
    obtain ⟨k, y⟩ := e
    rw [get?_cons] at h
    by_cases hk : k = key
    · subst hk
      rw [if_pos (beq_self_eq_true k)] at h
      cases h
      exact ⟨[], t, rfl, fun f => by rw [modify, if_pos (beq_self_eq_true k)]; rfl⟩
    · rw [if_neg (by simpa using Ne.symm hk)] at h
      obtain ⟨before, after, rfl, hmodify⟩ := ih h
      refine ⟨(k, y) :: before, after, rfl, fun f => ?_⟩
      rw [modify, if_neg (by simpa using hk), hmodify]
      rfl

/-- Changing a value, then all of them, is the same the other way round. -/
theorem mapValues_modify (t : Table α) (key : String) {f : α → α} {g : β → β} {h : α → β}
    (hfg : ∀ x, h (f x) = g (h x)) :
    mapValues (modify t key f) h = modify (mapValues t h) key g := by
  induction t with
  | nil => rfl
  | cons e t ih =>
    obtain ⟨k, x⟩ := e
    have hcons : mapValues ((k, x) :: t) h = (k, h x) :: mapValues t h := rfl
    rw [hcons, modify, modify]
    split
    · rw [← hfg]
      rfl
    · rw [← ih]
      rfl

end Gamebook.Table
