import Gamebook.Proofs.Extension.Soundness
import Gamebook.Proofs.Text.Trim

/-!
# Documents as answers

What is written as an object is read as an answer with that object, in any layout.  A story that is
written stands for an answer about another story.

* `readResponse_write`    : an object that is written is read as an answer.
* `readResponse_written`  : a written story is read as an answer with its own document.
* `sections_of_rewritten` : such an answer's sections are the ones that are adopted.
-/

set_option autoImplicit false

namespace Gamebook.Extension

theorem chars_obj (layout : JsonLayout) (fields : Table Json) :
    ∃ inside, Json.chars layout 0 (.obj fields) = '\x7b' :: (inside ++ ['\x7d']) := by
  cases fields with
  | nil => exact ⟨[], rfl⟩
  | cons e rest =>
    obtain ⟨key, v⟩ := e
    exact ⟨Json.lineBreak layout 1 ++ Json.stringChars layout.asciiOnly key ++ [':', ' '] ++
      Json.chars layout 1 v ++ Json.fieldsChars layout 1 rest ++ Json.lineBreak layout 0, rfl⟩

/-- The text of an object stands without a fence, and has no blanks around it. -/
theorem documentText_obj (layout : JsonLayout) (fields : Table Json) :
    documentText (Json.write layout (.obj fields)) = Json.write layout (.obj fields) := by
  obtain ⟨inside, hchars⟩ := chars_obj layout fields
  have htrim : Text.trimList Text.isBlank ('\x7b' :: (inside ++ ['\x7d'])) =
      '\x7b' :: (inside ++ ['\x7d']) := Text.trimList_of_ends (by decide) (by decide) inside
  unfold documentText Json.write
  rw [String.toList_ofList, hchars]
  dsimp only
  rw [htrim]
  rfl

/-- The text of an object, in any layout, is read as an answer with that object. -/
theorem readResponse_write {fields : Table Json} (hproper : (Json.obj fields).Proper)
    (hdepth : (Json.obj fields).isWithin nestingLimit = true) (layout : JsonLayout) :
    readResponse ((Json.obj fields).write layout) = .ok (.obj fields) := by
  unfold readResponse
  rw [documentText_obj, Json.read_write layout hproper hdepth]

variable {s : Story}

theorem not_blank_obj (layout : JsonLayout) (fields : Table Json) :
    ((Json.obj fields).write layout).toList.all Text.isBlank = false := by
  obtain ⟨inside, hchars⟩ := chars_obj layout fields
  have hopen : Text.isBlank '\x7b' = false := by decide
  unfold Json.write
  rw [String.toList_ofList, hchars, List.all_cons, hopen, Bool.false_and]

theorem not_blank_compactText (s : Story) : s.compactText.toList.all Text.isBlank = false := by
  unfold Story.compactText Json.compact
  rw [toJson_eq]
  exact not_blank_obj _ _

/-- A written story is read as an answer with its own document. -/
theorem readResponse_written (hproper : s.Proper) (hwritable : s.isWritable = true) :
    readResponse s.compactText = .ok s.toJson := by
  have hdoc : s.toJson.Proper := storyCodec_lawful.proper_write s hproper
  have hwithin := storyCodec_lawful.within_write s (s.isWritable_iff.1 hwritable)
  have hdepth : s.toJson.isWithin nestingLimit = true :=
    Json.isWithin_mono _ (by decide) hwithin
  unfold Story.compactText Json.compact
  rw [toJson_eq] at hdoc hdepth ⊢
  exact readResponse_write hdoc hdepth _

theorem review_written (hproper : s.Proper) (hwritable : s.isWritable = true) (former : Story)
    (x : String) : review former s.compactText x = reviewDocument former s.toJson x :=
  review_of_read (readResponse_written hproper hwritable) former x

/-- The sections of such an answer are the ones that are adopted. -/
theorem sections_of_rewritten {former merged : Story} {x : String} (hformer : former.Proper)
    (hproper : s.Proper) (hwritable : s.isWritable = true)
    (h : review former s.compactText x = .ok (.ok merged)) :
    merged.sections = s.settled.sections := by
  obtain ⟨fields, sections, hread, hsections, hjudged⟩ := of_review h
  rw [readResponse_written hproper hwritable, toJson_eq] at hread
  cases hread
  have hslot : Table.get? (fieldsOf s) "sections" = some (sectionCodec.table.write s.sections) :=
    get?_fieldsOf hproper.extra.unknown (.tail _ (.tail _ (.head _)))
  have hadopted : Table.get? (adopted former (fieldsOf s)) "sections" =
      some (sectionCodec.table.write s.sections) := by
    rw [adopted_sections _ hformer, hslot]
  have hcheck := sectionCodec_lawful.table.required hadopted hproper.sections
  have hloaded := (loaded_of_judged hjudged).sections
  have heq : Checked.ok s.settled.sections = Checked.ok merged.sections :=
    hcheck.symm.trans hloaded
  exact (Checked.ok.inj heq).symm

end Gamebook.Extension
