import Gamebook.Proofs.Number.Digits
import Gamebook.Proofs.Table

/-!
# Values as the reader gives them

* `Json.Proper`      : no object repeats a key, and no whole number is too long to be read.
* `proper_of_read`   : every value that is read from a text is proper.

The induction is on the fuel of the reader, over its three functions together.
-/

set_option autoImplicit false

namespace Gamebook.Json

mutual
/-- No object repeats a key, and no whole number has more digits than are read. -/
def Proper : Json → Prop
  | .int n => (Nat.repr n.natAbs).length ≤ digitLimit
  | .arr items => ProperItems items
  | .obj fields => (Table.keys fields).Nodup ∧ ProperFields fields
  | _ => True

def ProperItems : List Json → Prop
  | [] => True
  | v :: rest => Proper v ∧ ProperItems rest

def ProperFields : List (String × Json) → Prop
  | [] => True
  | (_, v) :: rest => Proper v ∧ ProperFields rest
end

theorem properItems_iff (items : List Json) : ProperItems items ↔ ∀ v ∈ items, Proper v := by
  induction items with
  | nil => simp [ProperItems]
  | cons v rest ih => simp [ProperItems, ih]

theorem properFields_iff (fields : List (String × Json)) :
    ProperFields fields ↔ ∀ e ∈ fields, Proper e.2 := by
  induction fields with
  | nil => simp [ProperFields]
  | cons e rest ih =>
    obtain ⟨k, v⟩ := e
    simp [ProperFields, ih]

/-! ## What is read is proper -/

theorem wholePart?_all {cs : List Char} {p : List Char × List Char} (h : wholePart? cs = some p) :
    ∀ c ∈ p.1, c.isDigit = true := by
  unfold wholePart? at h
  split at h
  · cases h
    simp
  · split at h
    · rename_i hdigit
      cases h
      intro c hc
      rcases List.mem_cons.1 hc with rfl | hc
      · exact hdigit
      · exact List.all_eq_true.1 List.all_takeWhile c hc
    · cases h
  · cases h

theorem natAbs_signed (negative : Bool) (n : Nat) :
    (if negative = true then -(n : Int) else n).natAbs = n := by
  cases negative <;> simp

theorem proper_number {cs : List Char} {p : Json × List Char} (h : number cs = .ok p) :
    p.1.Proper := by
  unfold number at h
  dsimp only at h
  split at h
  · cases h
  · rename_i whole rest hwhole
    split at h
    · split at h
      · cases h
      · rename_i hlimit
        have hlt := digitsValue_lt (wholePart?_all hwhole)
        have hlength : (Nat.repr (digitsValue whole)).length ≤ digitLimit := by
          by_cases hzero : whole.length = 0
          · rw [List.length_eq_zero_iff] at hzero
            subst hzero
            decide
          · exact Nat.le_trans ((Nat.length_repr_le_iff (Nat.pos_of_ne_zero hzero)).2 hlt)
              (Nat.le_of_not_lt hlimit)
        cases h
        unfold Proper
        rw [natAbs_signed]
        exact hlength
    · cases h
      trivial

theorem proper_word {cs : List Char} {p : Json × List Char} (h : word? cs = some p) :
    p.1.Proper := by
  unfold word? at h
  obtain ⟨⟨w, v⟩, hmem, hv⟩ := List.exists_of_findSome?_eq_some h
  dsimp only at hv
  split at hv
  · cases hv
    simp only [words, List.mem_cons, Prod.mk.injEq, List.not_mem_nil, or_false] at hmem
    rcases hmem with h | h | h | h | h | h <;> rw [h.2] <;> trivial
  · cases hv

/-- With this fuel the reader gives proper values only. -/
def GivesProper (fuel : Nat) : Prop :=
  (∀ depth cs p, value fuel depth cs = .ok p → p.1.Proper) ∧
    (∀ depth cs p, items fuel depth cs = .ok p → ProperItems p.1) ∧
    ∀ depth cs p, fields fuel depth cs = .ok p → ProperFields p.1

theorem proper_value_step {fuel : Nat} (ih : GivesProper fuel) {depth : Nat} {cs : List Char}
    {p : Json × List Char} (h : value (fuel + 1) depth cs = .ok p) : p.1.Proper := by
  obtain ⟨-, hitems, hfields⟩ := ih
  rw [value.eq_def] at h
  dsimp only at h
  split at h
  · cases h
  · simp only [bind, Except.bind] at h
    split at h
    · cases h
    · cases h
      trivial
  · split at h
    · cases h
    · split at h
      · cases h
        trivial
      · simp only [bind, Except.bind] at h
        split at h
        · cases h
        · rename_i hread
          cases h
          exact hitems _ _ _ hread
  · split at h
    · cases h
    · split at h
      · cases h
        exact ⟨List.nodup_nil, trivial⟩
      · simp only [bind, Except.bind] at h
        split at h
        · cases h
        · rename_i hread
          cases h
          have hall := (properFields_iff _).1 (hfields _ _ _ hread)
          exact ⟨Table.nodup_ofList _,
            (properFields_iff _).2 fun e he => hall e (Table.mem_ofList he)⟩
  · split at h
    · rename_i hword
      cases h
      exact proper_word hword
    · exact proper_number h

theorem proper_items_step {fuel : Nat} (ih : GivesProper fuel) {depth : Nat} {cs : List Char}
    {p : List Json × List Char} (h : items (fuel + 1) depth cs = .ok p) : ProperItems p.1 := by
  obtain ⟨hvalues, hitems, -⟩ := ih
  rw [items] at h
  simp only [bind, Except.bind] at h
  split at h
  · cases h
  · rename_i hfirst
    have hproper := hvalues _ _ _ hfirst
    split at h
    · cases h
      exact ⟨hproper, trivial⟩
    · split at h
      · cases h
      · rename_i hrest
        cases h
        exact ⟨hproper, hitems _ _ _ hrest⟩
    · cases h

theorem proper_fields_step {fuel : Nat} (ih : GivesProper fuel) {depth : Nat} {cs : List Char}
    {p : List (String × Json) × List Char} (h : fields (fuel + 1) depth cs = .ok p) :
    ProperFields p.1 := by
  obtain ⟨hvalues, -, hfields⟩ := ih
  rw [fields.eq_def] at h
  dsimp only at h
  split at h
  · simp only [bind, Except.bind] at h
    split at h
    · cases h
    · split at h
      · split at h
        · cases h
        · rename_i hfirst
          have hproper := hvalues _ _ _ hfirst
          split at h
          · cases h
            exact ⟨hproper, trivial⟩
          · split at h
            · cases h
            · rename_i hrest
              cases h
              exact ⟨hproper, hfields _ _ _ hrest⟩
          · cases h
      · cases h
  · cases h

theorem givesProper (fuel : Nat) : GivesProper fuel := by
  induction fuel with
  | zero =>
    refine ⟨?_, ?_, ?_⟩
    all_goals
      intro depth cs p h
      cases h
  | succ fuel ih =>
    exact ⟨fun _ _ _ h => proper_value_step ih h, fun _ _ _ h => proper_items_step ih h,
      fun _ _ _ h => proper_fields_step ih h⟩

/-- Every value that is read from a text is proper. -/
theorem proper_of_read {text : String} {v : Json} (h : read text = .ok v) : v.Proper := by
  unfold read at h
  split at h
  · rename_i hchars
    cases h
    unfold readChars at hchars
    split at hchars
    · cases hchars
    · simp only [bind, Except.bind] at hchars
      split at hchars
      · cases hchars
      · rename_i hvalue
        split at hchars
        · cases hchars
          exact (givesProper _).1 _ _ _ hvalue
        · cases hchars
  · cases h

end Gamebook.Json
