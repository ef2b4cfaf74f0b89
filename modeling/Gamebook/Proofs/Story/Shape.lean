import Gamebook.Proofs.Codec

/-!
# Documents before and after

What a schema lets happen to a document that is loaded and written back, said without the checks: which
values become which, and that everything else is as it was.

* `Shape`                  : how a document relates to the one written back, for a given relation of the
  values under unknown keys.
* `AsText`, `AsWhole`, `AsTruth` : the values that become texts, whole numbers and truth values.
* `Shape.nullable`, `Shape.list`, `Shape.table`, `Shape.record` : fields that may be null, lists, tables
  and records of documents.
* `Reordered`, `Shape.IsExact` : a document that is as it should be comes back as it was, its keys
  perhaps in another order.
* `Codec.Keeps`            : what a check and a writer do to a document, with its compositions.
-/

set_option autoImplicit false

namespace Gamebook

/-- A relation of a document before and after. -/
abbrev Form := Json → Json → Prop

/-- How a document relates to the one written back, for a relation of the values under unknown keys. -/
abbrev Shape := Form → Form

/-! ## Single values -/

inductive KeptText : Form
  | text (s : String) : KeptText (.str s) (.str s)

theorem KeptText.exists_str {v w : Json} (h : KeptText v w) : ∃ s, v = .str s := by
  cases h
  exact ⟨_, rfl⟩

/-- A text is kept; a number or a truth value becomes its text. -/
inductive AsText : Form
  | text (s : String) : AsText (.str s) (.str s)
  | truth (b : Bool) : AsText (.bool b) (.str (if b then "true" else "false"))
  | whole (n : Int) : AsText (.int n) (.str (Json.intText n))
  | number (x : Binary64) : AsText (.float x) (.str (Json.shownNumber x))

/-- A whole number is kept; a truth value, a number without a fraction, or the text of a whole number
becomes one. -/
inductive AsWhole : Form
  | whole (n : Int) : AsWhole (.int n) (.int n)
  | truth (b : Bool) : AsWhole (.bool b) (.int (if b then 1 else 0))
  | number {x : Binary64} {n : Int} (h : x.toInt? = some n) : AsWhole (.float x) (.int n)
  | text {s : String} {n : Int} (h : wholeOfText s = .ok n) : AsWhole (.str s) (.int n)

/-- A truth value is kept; zero, one or a word for a truth value becomes one. -/
inductive AsTruth : Form
  | truth (b : Bool) : AsTruth (.bool b) (.bool b)
  | whole (b : Bool) : AsTruth (.int (if b then 1 else 0)) (.bool b)
  | number {x : Binary64} {b : Bool} (h : x.toInt? = some (if b then 1 else 0)) :
    AsTruth (.float x) (.bool b)
  | word {s : String} {b : Bool} (h : Check.boolWords.lookup s.toLower = some b) :
    AsTruth (.str s) (.bool b)

/-- A text or a whole number is kept; what else means a whole number becomes one. -/
inductive AsTarget : Form
  | text (s : String) : AsTarget (.str s) (.str s)
  | whole {v w : Json} (hv : v.asStr? = none) (h : AsWhole v w) : AsTarget v w

/-- An empty text for null, and a text for everything that becomes one. -/
inductive AsParameter : Form
  | null : AsParameter .null (.str "")
  | text {v w : Json} (h : AsText v w) : AsParameter v w

/-! ## Lists, tables and records -/

namespace Shape

/-- A value of its own, without unknown keys. -/
def single (F : Form) : Shape := fun _ => F

def nullable (F : Shape) : Shape := fun u v w => v = .null ∧ w = .null ∨ v ≠ .null ∧ F u v w

/-- Lists are as long, and item for item as the shape says. -/
def list (F : Shape) : Shape := fun u v w =>
  ∃ xs ys, v = .arr xs ∧ w = .arr ys ∧ List.Forall₂ (F u) xs ys

/-- Tables have the same keys in the same order, and values as the shape says. -/
def table (F : Shape) : Shape := fun u v w =>
  ∃ fs gs : Table Json, v = .obj fs ∧ w = .obj gs ∧
    List.Forall₂ (fun e f => e.1 = f.1 ∧ F u e.2 f.2) fs gs

/-- Records have the same keys, the declared ones with values as their shapes say, all others with
values as the relation says. -/
def record (declared : Table Shape) : Shape := fun u v w =>
  ∃ fs gs : Table Json, v = .obj fs ∧ w = .obj gs ∧ fs.keys.Perm gs.keys ∧
    ∀ key a b, fs.get? key = some a → gs.get? key = some b →
      ((declared.get? key).elim u fun F => F u) a b

def either (F G : Shape) : Shape := fun u v w => F u v w ∨ G u v w

/-- The parameters of an action: no list becomes an empty one. -/
def parameters : Shape := fun u v w =>
  v = .null ∧ w = .arr [] ∨ list (single AsParameter) u v w

end Shape

/-- A record is related to itself when its values are. -/
theorem Shape.record_self {declared : Table Shape} {u : Form} {fields : Table Json}
    (h : ∀ e ∈ fields, ((declared.get? e.1).elim u fun F => F u) e.2 e.2) :
    Shape.record declared u (.obj fields) (.obj fields) := by
  refine ⟨fields, fields, rfl, rfl, .refl _, fun key a b ha hb => ?_⟩
  rw [ha] at hb
  cases hb
  exact h _ (Table.mem_of_get? ha)

/-! ## Documents that need no change -/

/-- Two documents differ at most in the order of keys. -/
inductive Reordered : Json → Json → Prop
  | same (v : Json) : Reordered v v
  | arr {xs ys : List Json} (h : List.Forall₂ Reordered xs ys) : Reordered (.arr xs) (.arr ys)
  | obj {fs gs : Table Json} (hkeys : fs.keys.Perm gs.keys)
    (h : ∀ key a b, fs.get? key = some a → gs.get? key = some b → Reordered a b) :
    Reordered (.obj fs) (.obj gs)

/-- A document that is as its shape wants it is related, as far as unknown values are kept, to itself in
another order of keys only. -/
def Shape.IsExact (F : Shape) : Prop := ∀ v w, F Eq v v → F Eq v w → Reordered v w

namespace Shape.IsExact

theorem single {F : Form} (h : ∀ v w, F v v → F v w → w = v) : (Shape.single F).IsExact := by
  intro v w hsame hvw
  rw [h v w hsame hvw]
  exact .same v

variable {F : Shape}

theorem nullable (h : F.IsExact) : F.nullable.IsExact := by
  rintro v w hsame (⟨rfl, rfl⟩ | ⟨hv, hvw⟩)
  · exact .same _
  · rcases hsame with ⟨rfl, -⟩ | ⟨-, hsame⟩
    · exact absurd rfl hv
    · exact h v w hsame hvw

theorem list (h : F.IsExact) : F.list.IsExact := by
  rintro v w ⟨xs, ys, rfl, heq, hsame⟩ ⟨xs', zs, hxs, rfl, hrelated⟩
  cases hxs
  cases heq
  rw [List.forall₂_same] at hsame
  exact .arr (((List.forall₂_and_left _ _).2 ⟨hsame, hrelated⟩).imp fun a b hab =>
    h a b hab.1 hab.2)

theorem table (h : F.IsExact) : F.table.IsExact := by
  rintro v w ⟨fs, gs, rfl, heq, hsame⟩ ⟨fs', hs, hfs, rfl, hrelated⟩
  cases hfs
  cases heq
  rw [List.forall₂_same] at hsame
  have hkeys := Table.keys_of_forall₂ And.left hrelated
  have hvalues : List.Forall₂ (fun e f => e.1 = f.1 ∧ Reordered e.2 f.2) fs hs :=
    ((List.forall₂_and_left _ _).2 ⟨hsame, hrelated⟩).imp fun e f hef =>
      ⟨hef.2.1, h e.2 f.2 hef.1.2 hef.2.2⟩
  refine .obj (by rw [hkeys]) fun key a b ha hb => ?_
  obtain ⟨a', ha', -, hab⟩ := Table.get?_of_forall₂ And.left hvalues hb
  rw [ha'] at ha
  cases ha
  exact hab

theorem record {declared : Table Shape} (h : ∀ e ∈ declared, e.2.IsExact) :
    (Shape.record declared).IsExact := by
  rintro v w ⟨fs, gs, rfl, heq, -, hsame⟩ ⟨fs', hs, hfs, rfl, hkeys, hrelated⟩
  cases hfs
  cases heq
  refine .obj hkeys fun key a b ha hb => ?_
  have hself := hsame key a a ha ha
  have hother := hrelated key a b ha hb
  cases hget : declared.get? key with
  | none =>
    rw [hget] at hother
    rw [show a = b from hother]
    exact .same b
  | some F =>
    rw [hget] at hself hother
    exact h _ (Table.mem_of_get? hget) a b hself hother

theorem either {G : Shape} (hF : F.IsExact) (hG : G.IsExact)
    (h : ∀ v w w', F Eq v w → ¬ G Eq v w') : (Shape.either F G).IsExact := by
  rintro v w (hsame | hsame) (hvw | hvw)
  · exact hF v w hsame hvw
  · exact absurd hvw (h v v w hsame)
  · exact absurd hsame (h v w v hvw)
  · exact hG v w hsame hvw

theorem parameters : Shape.parameters.IsExact := by
  rintro v w (⟨rfl, hsame⟩ | hsame) hvw
  · cases hsame
  · rcases hvw with ⟨rfl, rfl⟩ | hvw
    · obtain ⟨xs, ys, hxs, -⟩ := hsame
      cases hxs
    · refine list (single ?_) v w hsame hvw
      rintro a b ha hab
      cases ha with
      | text ha =>
        cases ha
        cases hab with
        | text hab =>
          cases hab
          rfl

end Shape.IsExact

/-! ## What a check and a writer do -/

namespace Codec

variable {α : Type} {c : Codec α} {F : Shape}

/-- What is loaded is written as the shape says, for a relation of unknown values that holds of each of
them and what it is without numbers that are not finite. -/
def Keeps (c : Codec α) (F : Shape) : Prop := ∀ v a, v.Proper → c.check v = .ok a →
  ∀ u : Form, F u v (c.write a) ↔ ∀ x ∈ c.unknown a, u x x.finiteOnly

/-- A value of a field before and after, and the unknown values in it. -/
inductive KeepsSlot (F : Shape) : Option Json → Option Json → List Json → Prop
  | absent : KeepsSlot F none none []
  | present {v w : Json} {xs : List Json} (h : ∀ u : Form, F u v w ↔ ∀ x ∈ xs, u x x.finiteOnly) :
    KeepsSlot F (some v) (some w) xs

namespace KeepsSlot

variable {before after : Option Json} {xs : List Json} (h : KeepsSlot F before after xs)

include h

theorem isSome : after.isSome = before.isSome := by
  cases h <;> rfl

theorem iff (u : Form) : (∀ x ∈ xs, u x x.finiteOnly) ↔
    ∀ v w, before = some v → after = some w → F u v w := by
  cases h with
  | absent => exact iff_of_true (List.forall_mem_nil _) fun v w hv => nomatch hv
  | present h =>
    rw [← h u]
    constructor
    · rintro hvw v w ⟨⟩ ⟨⟩
      exact hvw
    · exact fun hall => hall _ _ rfl rfl

end KeepsSlot

theorem keeps_plain {check : Json → Checked α} {write : α → Json} {proper : α → Prop} {level : Nat}
    {R : Form} (h : ∀ v a, check v = .ok a → R v (write a)) :
    (plain check write proper level).Keeps (.single R) := fun v a _ hcheck _ =>
  iff_of_true (h v a hcheck) (List.forall_mem_nil _)

namespace Keeps

theorem list (h : c.Keeps F) : c.list.Keeps F.list := by
  intro v as hv hcheck u
  obtain ⟨items, rfl, hitems⟩ := Check.of_list hcheck
  have hall := (Json.properItems_iff items).1 hv
  have hparts : List.Forall₂ (F u) items (as.map c.write) ↔
      ∀ x ∈ as.flatMap c.unknown, u x x.finiteOnly := by
    clear hv hcheck
    induction hitems with
    | nil => exact iff_of_true .nil (List.forall_mem_nil _)
    | cons hfirst _ ih =>
      rw [List.forall_mem_cons] at hall
      rw [List.map_cons, List.forall₂_cons, h _ _ hall.1 hfirst u, ih hall.2, List.flatMap_cons,
        List.forall_mem_append]
  refine Iff.trans ⟨?_, fun hrelated => ⟨_, _, rfl, rfl, hrelated⟩⟩ hparts
  rintro ⟨xs, ys, hxs, hys, hrelated⟩
  cases hxs
  cases hys
  exact hrelated

theorem table (h : c.Keeps F) : c.table.Keeps F.table := by
  intro v t hv hcheck u
  obtain ⟨fields, rfl, hfields⟩ := Check.of_map hcheck
  have hall := (Json.properFields_iff fields).1 hv.2
  have hparts : List.Forall₂ (fun e f => e.1 = f.1 ∧ F u e.2 f.2) fields (t.mapValues c.write) ↔
      ∀ x ∈ t.values.flatMap c.unknown, u x x.finiteOnly := by
    clear hv hcheck
    unfold Table.mapValues Table.values
    induction hfields with
    | nil => exact iff_of_true .nil (List.forall_mem_nil _)
    | cons hfirst _ ih =>
      rw [List.forall_mem_cons] at hall
      rw [List.map_cons, List.forall₂_cons, h _ _ hall.1 hfirst.2 u, ih hall.2, List.map_cons,
        List.flatMap_cons, List.forall_mem_append]
      exact and_congr_left fun _ => and_iff_right hfirst.1
  refine Iff.trans ⟨?_, fun hrelated => ⟨_, _, rfl, rfl, hrelated⟩⟩ hparts
  rintro ⟨fs, gs, hfs, hgs, hrelated⟩
  cases hfs
  cases hgs
  exact hrelated

section Fields

variable (h : c.Keeps F) {fields : Table Json} (hfields : (Json.obj fields).Proper) {key : String}

include h hfields

theorem required {a : α} (hcheck : Check.required fields key c.check = .ok a) :
    KeepsSlot F (fields.get? key) (some (c.write a)) (c.unknown a) := by
  obtain ⟨v, hget, ha⟩ := Check.of_required hcheck
  have hv := (Json.properFields_iff _).1 hfields.2 _ (Table.mem_of_get? hget)
  rw [hget]
  exact .present (h v a hv ha)

theorem optional {f : Field α} (hcheck : Check.optional fields key c.check = .ok f) :
    KeepsSlot F.nullable (fields.get? key) (f.slot c.write) (f.collect c.unknown) := by
  rcases Check.of_optional hcheck with ⟨rfl, hget⟩ | ⟨rfl, hget⟩ | ⟨v, a, rfl, hget, hv, ha⟩
  · rw [hget]
    exact .absent
  · rw [hget]
    exact .present fun u => iff_of_true (.inl ⟨rfl, rfl⟩) (List.forall_mem_nil _)
  · have hproper := (Json.properFields_iff _).1 hfields.2 _ (Table.mem_of_get? hget)
    rw [hget]
    refine .present fun u => ?_
    refine Iff.trans ⟨?_, fun hvw => .inr ⟨hv, hvw⟩⟩ (h v a hproper ha u)
    rintro (⟨hnone, -⟩ | ⟨-, hvw⟩)
    · exact absurd hnone hv
    · exact hvw

theorem defaulted {o : Option α} (hcheck : Check.defaulted fields key c.check = .ok o) :
    KeepsSlot F (fields.get? key) (o.map c.write) (o.elim [] c.unknown) := by
  rcases Check.of_defaulted hcheck with ⟨rfl, hget⟩ | ⟨v, a, rfl, hget, ha⟩
  · rw [hget]
    exact .absent
  · have hv := (Json.properFields_iff _).1 hfields.2 _ (Table.mem_of_get? hget)
    rw [hget]
    exact .present (h v a hv ha)

end Fields

section Plain

variable {check : Json → Checked α} {write : α → Json} {proper : α → Prop} {level : Nat}
  (h : (plain check write proper level).Keeps F) {fields : Table Json}
  (hfields : (Json.obj fields).Proper) {key : String}

include h hfields

/-- A value without unknown fields. -/
theorem plain_required {a : α} (hcheck : Check.required fields key check = .ok a) :
    KeepsSlot F (fields.get? key) (some (write a)) [] := h.required hfields hcheck

theorem plain_optional {f : Field α} (hcheck : Check.optional fields key check = .ok f) :
    KeepsSlot F.nullable (fields.get? key) (f.slot write) [] := by
  have hslot := h.optional hfields hcheck
  have hnone : f.collect (plain check write proper level).unknown = [] := by cases f <;> rfl
  rw [hnone] at hslot
  exact hslot

theorem plain_defaulted {o : Option α} (hcheck : Check.defaulted fields key check = .ok o) :
    KeepsSlot F (fields.get? key) (o.map write) [] := by
  have hslot := h.defaulted hfields hcheck
  have hnone : o.elim [] (plain check write proper level).unknown = [] := by cases o <;> rfl
  rw [hnone] at hslot
  exact hslot

end Plain

end Keeps

/-! ## Records -/

inductive KeepsSlots (fields : Table Json) :
    Table Shape → List (String × Option Json) → List Json → Prop
  | nil : KeepsSlots fields [] [] []
  | cons {key : String} {F : Shape} {o : Option Json} {xs ys : List Json} {declared : Table Shape}
    {slots : List (String × Option Json)} (h : KeepsSlot F (fields.get? key) o xs)
    (hrest : KeepsSlots fields declared slots ys) :
    KeepsSlots fields ((key, F) :: declared) ((key, o) :: slots) (xs ++ ys)

section Slots

variable {fields : Table Json} {declared : Table Shape} {slots : List (String × Option Json)}
  {xs : List Json} (h : KeepsSlots fields declared slots xs) {get : String → Option Json}
  (hget : ∀ slot ∈ slots, get slot.1 = slot.2)

include h hget

/-- A declared key has a value afterwards exactly when it had one. -/
theorem KeepsSlots.isSome : ∀ e ∈ declared, (get e.1).isSome = (fields.get? e.1).isSome := by
  induction h with
  | nil => exact List.forall_mem_nil _
  | cons hfirst _ ih =>
    rw [List.forall_mem_cons] at hget ⊢
    exact ⟨by rw [hget.1, hfirst.isSome], ih hget.2⟩

theorem KeepsSlots.iff (u : Form) : (∀ x ∈ xs, u x x.finiteOnly) ↔
    ∀ e ∈ declared, ∀ v w, fields.get? e.1 = some v → get e.1 = some w → e.2 u v w := by
  induction h with
  | nil => exact iff_of_true (List.forall_mem_nil _) (List.forall_mem_nil _)
  | cons hfirst _ ih =>
    rw [List.forall_mem_cons] at hget
    rw [List.forall_mem_append, List.forall_mem_cons, ih hget.2, hfirst.iff u, hget.1]

end Slots

/-- The unknown fields of a record keep their values as far as the relation says. -/
theorem unknown_iff {fields written : Table Json} {declared : List String}
    (hfields : fields.keys.Nodup) (u : Form)
    (hwritten : ∀ key, key ∉ declared →
      written.get? key = (Table.get? (Check.unknown fields declared) key).map Json.finiteOnly) :
    (∀ x ∈ (Check.unknown fields declared).values, u x x.finiteOnly) ↔
      ∀ key, key ∉ declared → ∀ v w, fields.get? key = some v → written.get? key = some w →
        u v w := by
  have hget {key : String} (hkey : key ∉ declared) :
      Table.get? (Check.unknown fields declared) key = fields.get? key := by
    rw [Check.unknown, Table.get?_filterKeys, if_pos (by simpa using hkey)]
  constructor
  · intro hall key hkey v w hv hw
    rw [hwritten key hkey, hget hkey, hv] at hw
    cases hw
    have hmem := Table.mem_of_get? ((hget hkey).trans hv)
    exact hall v (List.mem_map_of_mem (f := Prod.snd) hmem)
  · intro hall x hx
    obtain ⟨e, he, rfl⟩ := List.mem_map.1 hx
    have hmem := List.mem_filter.1 he
    have hkey : e.1 ∉ declared := by simpa using hmem.2
    have hvalue := Table.get?_of_mem hfields hmem.1
    refine hall e.1 hkey e.2 _ hvalue ?_
    rw [hwritten e.1 hkey, hget hkey, hvalue]
    rfl

/-- What loading a record finds: its declared fields each as its shape says, the others unknown. -/
structure KeepsRecord (c : Codec α) (declared : Table Shape) (slots : List (String × Option Json))
    (extra : Table Json) (fields : Table Json) (a : α) : Prop where
  rest : extra = Check.unknown fields declared.keys
  parts : ∃ xs, KeepsSlots fields declared slots xs ∧
    ∀ p : Json → Prop, (∀ x ∈ c.unknown a, p x) ↔ (∀ x ∈ extra.values, p x) ∧ ∀ x ∈ xs, p x

/-- A record keeps its document when its fields keep theirs. -/
theorem keeps_record {declared : Table Shape} {slots : α → List (String × Option Json)}
    {extra : α → Table Json} (r : c.Record declared.keys slots extra) (hc : c.Lawful)
    (h : ∀ v a, v.Proper → c.check v = .ok a →
      ∃ fields : Table Json, v = .obj fields ∧ c.KeepsRecord declared (slots a) (extra a) fields a) :
    c.Keeps (.record declared) := by
  intro v a hv hcheck u
  have ha := hc.proper_check v a hv hcheck
  obtain ⟨fields, rfl, hextra, xs, hslots, hunknown⟩ := h v a hv hcheck
  obtain ⟨written, hwrite⟩ : ∃ written : Table Json, c.write a = .obj written :=
    ⟨_, r.write_eq a⟩
  have hwritten := hc.proper_write a ha
  have hget : ∀ slot ∈ slots a, written.get? slot.1 = slot.2 := by
    intro slot hslot
    have hvalue := r.get?_slot ha hslot
    rw [hwrite] at hvalue
    exact hvalue
  have hother : ∀ key, key ∉ declared.keys → written.get? key =
      (Table.get? (Check.unknown fields declared.keys) key).map Json.finiteOnly := by
    intro key hkey
    have hvalue := r.get?_unknown a hkey
    rw [hwrite, hextra] at hvalue
    exact hvalue
  rw [hwrite] at hwritten ⊢
  have hsome : ∀ key, (written.get? key).isSome = (fields.get? key).isSome := by
    intro key
    by_cases hkey : key ∈ declared.keys
    · obtain ⟨e, he, rfl⟩ := List.mem_map.1 hkey
      exact hslots.isSome hget e he
    · rw [hother key hkey, Option.isSome_map, Check.unknown, Table.get?_filterKeys,
        if_pos (by simpa using hkey)]
  have hkeys : fields.keys.Perm written.keys := by
    refine (List.perm_ext_iff_of_nodup hv.1 hwritten.1).2 fun key => ?_
    rw [← Table.has_iff, ← Table.has_iff, Table.has, Table.has, hsome]
  rw [hunknown, hextra, hslots.iff hget u, unknown_iff hv.1 u hother]
  constructor
  · rintro ⟨fs, gs, hfs, hgs, -, hrelated⟩
    cases hfs
    cases hgs
    refine ⟨fun key hkey v w hv hw => ?_, fun e he v w hv hw => ?_⟩
    · have hvw := hrelated key v w hv hw
      rwa [Table.get?_eq_none_iff.2 hkey] at hvw
    · have hvw := hrelated e.1 v w hv hw
      rwa [Table.get?_of_mem r.nodup he] at hvw
  · rintro ⟨hunknowns, hdeclared⟩
    refine ⟨fields, written, rfl, rfl, hkeys, fun key v w hv hw => ?_⟩
    cases hkey : declared.get? key with
    | none => exact hunknowns key (Table.get?_eq_none_iff.1 hkey) v w hv hw
    | some F => exact hdeclared _ (Table.mem_of_get? hkey) v w hv hw

end Codec

end Gamebook
