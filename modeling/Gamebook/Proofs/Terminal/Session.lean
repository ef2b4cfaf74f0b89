import Gamebook.Proofs.Player.Desk
import Gamebook.Proofs.Story.Reload
import Gamebook.Proofs.Text.Trim
import Gamebook.Terminal.Session

/-!
# What is typed in a session

Play at the terminal is compared with a player who takes the moves that the typed lines name, and whose
questions are answered by the lines in between.

* `commandOf`, `moveOf?`  : the command of a typed line, and the move that it names.
* `IsSnag`                : a line of digits that is read as a number, but is none, or is too long.
* `Plays`                 : a player takes the moves of the lines that are read as commands.
* `grant_move`, `turns_of_plays` : a turn at the terminal, and all turns.
* `written_of_readStory`  : a file that was read as a story can be written.
* `play_ends_iff`         : when a session ends well, and what it leaves behind.
-/

set_option autoImplicit false

namespace Gamebook

/-- Lines as answers; nobody answers any more when none is left. -/
def Prompter.ofLines : Prompter (List String) where
  ask _ lines :=
    match lines with
    | [] => (.ended, [])
    | line :: rest => (.answer line, rest)

namespace Terminal

/-! ## Lines and what they name -/

/-- The command of a typed line, without blanks around it and in lower case; the empty line is the
command to go forward. -/
def commandOf (line : String) : String :=
  Text.lower (Text.trim (if line.isEmpty then "f" else line))

/-- The move that a typed line names: back, forward, or the choice of a decimal number, counted from
one. -/
def moveOf? (line : String) : Option Move :=
  let command := commandOf line
  if command = "b" then some .back
  else if command = "f" then some .forward
  else if command.isEmpty then none
  else (Text.decimalValue? command.toList).map fun n : Nat => .choose (n - 1)

/-- The line consists of characters with a digit value, but they are not all decimal digits, or more
decimal digits stand at its beginning than are read. -/
def IsSnag (line : String) : Prop :=
  commandOf line ≠ "" ∧ (commandOf line).toList.all Text.isDigitForm = true ∧
    ((commandOf line).toList.all Text.isDecimalDigit = false ∨
      digitLimit < ((commandOf line).toList.takeWhile Text.isDecimalDigit).length)

instance (line : String) : Decidable (IsSnag line) := inferInstanceAs (Decidable (_ ∧ _))

theorem foldlM_digits_isSome (cs : List Char) (n : Nat) :
    (cs.foldlM (fun acc c => (Text.decimalDigit? c).map (acc * 10 + ·)) n).isSome =
      cs.all Text.isDecimalDigit := by
  induction cs generalizing n with
  | nil => rfl
  | cons c cs ih =>
    rw [List.foldlM_cons, List.all_cons, Text.isDecimalDigit]
    cases Text.decimalDigit? c with
    | none => rfl
    | some d => exact ih _

/-- Decimal digits, and nothing else, denote a number. -/
theorem decimalValue?_isSome (cs : List Char) :
    (Text.decimalValue? cs).isSome = cs.all Text.isDecimalDigit := foldlM_digits_isSome cs 0

theorem all_isDigitForm {cs : List Char} (h : cs.all Text.isDecimalDigit = true) :
    cs.all Text.isDigitForm = true := by
  rw [List.all_eq_true] at h ⊢
  intro c hc
  rw [Text.isDigitForm, h c hc, Bool.true_or]

section Lines

variable {line : String}

theorem ofLine_eq (line : String) : Wish.ofLine line =
    if commandOf line = "q" then .quit
    else if commandOf line = "b" then .move .back
    else if commandOf line = "f" then .move .forward
    else if !(commandOf line).isEmpty && (commandOf line).toList.all Text.isDigitForm then
      choiceWish (commandOf line)
    else .unknown (commandOf line) := rfl

theorem ofLine_quit (h : commandOf line = "q") : Wish.ofLine line = .quit := by
  rw [ofLine_eq, if_pos h]

theorem not_isSnag {command : String} (h : commandOf line = command)
    (hletter : command.toList.all Text.isDigitForm = false) : ¬ IsSnag line := by
  rintro ⟨-, hforms, -⟩
  rw [h, hletter] at hforms
  cases hforms

/-- A snag ends the program. -/
theorem ofLine_snag (h : IsSnag line) : ∃ c, Wish.ofLine line = .crash c := by
  have hletter {command : String} (hcs : command.toList.all Text.isDigitForm = false) :
      ¬ commandOf line = command := fun heq => not_isSnag heq hcs h
  obtain ⟨hne, hforms, hwrong⟩ := h
  have hdigits : (!(commandOf line).isEmpty && (commandOf line).toList.all Text.isDigitForm) =
      true := by
    rw [hforms, Bool.and_true, Bool.not_eq_true', Bool.eq_false_iff, ne_eq, String.isEmpty_iff]
    exact hne
  rw [ofLine_eq, if_neg (hletter (by decide)), if_neg (hletter (by decide)),
    if_neg (hletter (by decide)), if_pos hdigits, choiceWish]
  split
  · exact ⟨_, rfl⟩
  · rename_i hfew
    have hnone : Text.decimalValue? (commandOf line).toList = none := by
      rw [← Option.not_isSome_iff_eq_none, decimalValue?_isSome, hwrong.resolve_right hfew]
      exact Bool.false_ne_true
    rw [hnone]
    exact ⟨_, rfl⟩

/-- Every other line is taken for the move that it names. -/
theorem ofLine_move (hquit : commandOf line ≠ "q") (h : ¬ IsSnag line) : Wish.ofLine line =
    match moveOf? line with
    | some m => .move m
    | none => .unknown (commandOf line) := by
  rw [ofLine_eq, if_neg hquit, moveOf?]
  by_cases hback : commandOf line = "b"
  · rw [if_pos hback, if_pos hback]
  by_cases hforward : commandOf line = "f"
  · rw [if_neg hback, if_neg hback, if_pos hforward, if_pos hforward]
  rw [if_neg hback, if_neg hback, if_neg hforward, if_neg hforward]
  by_cases hempty : commandOf line = ""
  · rw [hempty]
    rfl
  have hfull : (commandOf line).isEmpty = false := by
    rw [Bool.eq_false_iff, ne_eq, String.isEmpty_iff]
    exact hempty
  rw [hfull, if_neg Bool.false_ne_true]
  by_cases hforms : (commandOf line).toList.all Text.isDigitForm = true
  · -- a line of digits that is no snag is a number
    obtain ⟨hdecimal, hfew⟩ := not_or.1 fun hwrong => h ⟨hempty, hforms, hwrong⟩
    obtain ⟨n, hn⟩ : ∃ n, Text.decimalValue? (commandOf line).toList = some n := by
      rw [← Option.isSome_iff_exists, decimalValue?_isSome]
      exact Bool.not_eq_false _ ▸ hdecimal
    rw [if_pos (by rw [hforms]; rfl), choiceWish]
    simp only [if_neg hfew, hn, Option.map_some]
  · have hnone : Text.decimalValue? (commandOf line).toList = none := by
      rw [← Option.not_isSome_iff_eq_none, decimalValue?_isSome]
      exact fun hall => hforms (all_isDigitForm hall)
    rw [hnone, if_neg]
    · rfl
    · rw [Bool.not_false, Bool.true_and]
      exact hforms

end Lines

/-- Characters of ASCII and Latin-1 that are no capital letters stay as they are. -/
theorem lowerChar_of_small {c : Char} (h : c.toNat < 0x41 ∨ 0x5a < c.toNat ∧ c.toNat < 0xc0) :
    Text.lowerChar c = [c] := by
  have hruns : ∀ run ∈ Text.lowerRuns.toList, run.1 = 0x41 ∧ run.2.1 = 0x5a ∨ 0xc0 ≤ run.1 := by
    decide +kernel
  have hdotted : (c.toNat == 0x130) = false := by
    rw [beq_eq_false_iff_ne]
    omega
  unfold Text.lowerChar
  dsimp only
  rw [hdotted, Array.find?_eq_none.2]
  · rfl
  · rintro ⟨first, last, step, shift⟩ hrun
    have hbounds := hruns _ (Array.mem_toList_iff.2 hrun)
    simp only [Bool.and_eq_true, decide_eq_true_eq]
    dsimp only at hbounds
    omega

/-- A line of one such character, which is no blank, is the command. -/
theorem commandOf_small {c : Char} (h : c.toNat < 0x41 ∨ 0x5a < c.toNat ∧ c.toNat < 0xc0)
    (hblank : Text.isBlank c = false) : commandOf (String.singleton c) = String.singleton c := by
  have hfull : (String.singleton c).isEmpty = false := by
    rw [Bool.eq_false_iff, ne_eq, String.isEmpty_iff]
    exact String.singleton_ne_empty
  have hsigma : (c == 'Σ') = false := by
    rw [beq_eq_false_iff_ne]
    rintro rfl
    exact absurd h (by decide)
  unfold commandOf Text.lower Text.trim
  rw [hfull, if_neg Bool.false_ne_true, String.toList_singleton, Text.trimList_singleton hblank,
    String.toList_ofList, Text.lowerChars, Text.lowerChars, hsigma, lowerChar_of_small h]
  rfl

/-! ## Turns -/

/-- A player takes the moves that typed lines name, one line after another up to the command to quit;
the questions of scripts are answered by the lines behind, and no script is interrupted.  Listed are the
lines that are read as commands. -/
inductive Plays : Player (List String) → List String → Player (List String) → Prop
  | quit {p : Player (List String)} {line : String} {rest : List String}
    (hdesk : p.desk = line :: rest) (hquit : commandOf line = "q") :
    Plays p [line] { p with desk := rest }
  | stay {p q : Player (List String)} {line : String} {rest read : List String}
    (hdesk : p.desk = line :: rest) (hquit : commandOf line ≠ "q") (hmove : moveOf? line = none)
    (h : Plays { p with desk := rest } read q) : Plays p (line :: read) q
  | move {p q : Player (List String)} {line : String} {rest read : List String} {m : Move}
    (hdesk : p.desk = line :: rest) (hquit : commandOf line ≠ "q") (hmove : moveOf? line = some m)
    (hran : ∀ cause, (({ p with desk := rest } : Player (List String)).move
      (some .ofLines) m).2 ≠ .error (.interrupted cause))
    (h : Plays (({ p with desk := rest } : Player (List String)).move (some .ofLines) m).1 read q) :
    Plays p (line :: read) q

def IsLeft (d : Desk) (lines : List String) : Prop := d.lines = lines

theorem agree_prompter : Prompter.Agree IsLeft Desk.prompter .ofLines := by
  rintro message ⟨lines, shown⟩ _ rfl
  cases lines with
  | nil => exact ⟨rfl, rfl⟩
  | cons line rest => exact ⟨rfl, rfl⟩

/-- There are no more commands than lines: a move takes lines away at most. -/
theorem Plays.length_le {p q : Player (List String)} {read : List String} (h : Plays p read q) :
    read.length ≤ p.desk.length := by
  induction h with
  | quit hdesk => rw [hdesk]; simp
  | stay hdesk _ _ _ ih =>
    rw [hdesk]
    exact Nat.succ_le_succ ih
  | @move p q line rest read m hdesk _ _ _ _ ih =>
    rw [hdesk]
    refine Nat.succ_le_succ (ih.trans ?_)
    refine Player.move_keeps (K := fun lines => lines.length ≤ rest.length) ?_
      (p := { p with desk := rest }) (Nat.le_refl _) m
    intro message lines hlines
    cases lines with
    | nil => exact hlines
    | cons line more => exact Nat.le_of_succ_le hlines

theorem say_agree {p : Player Desk} {q : Player (List String)} (h : p.Agree IsLeft q)
    (pieces : List Shown) : (Play.say p pieces).Agree IsLeft q :=
  ⟨h.story, h.desk, h.asked, h.skipped⟩

theorem step_eq (p : Player Desk) (m : Move) :
    (Play.step p m).1 = (p.move (some Desk.prompter) m).1 ∧
      (Play.step p m).2.map (fun _ => ()) = (p.move (some Desk.prompter) m).2 := by
  cases m with
  | enter id =>
    refine ⟨rfl, ?_⟩
    change ((p.move (some Desk.prompter) (.enter id)).2.map fun _ => true).map _ = _
    cases (p.move (some Desk.prompter) (.enter id)).2 <;> rfl
  | choose index =>
    refine ⟨rfl, ?_⟩
    change ((p.move (some Desk.prompter) (.choose index)).2.map fun _ => true).map _ = _
    cases (p.move (some Desk.prompter) (.choose index)).2 <;> rfl
  | forward => exact ⟨rfl, rfl⟩
  | back => exact ⟨rfl, rfl⟩

/-- A move that is not interrupted leaves the terminal with the player after the move. -/
theorem grant_move {p : Player Desk} {q : Player (List String)} (h : p.Agree IsLeft q) {m : Move}
    (hran : ∀ cause, (q.move (some .ofLines) m).2 ≠ .error (.interrupted cause)) :
    ∃ p', Play.grant p (.move m) = (p', none) ∧ p'.Agree IsLeft (q.move (some .ofLines) m).1 := by
  obtain ⟨hafter, hresult⟩ := Player.move_agree agree_prompter h m
  obtain ⟨hstep, hmapped⟩ := step_eq p m
  rw [← hstep] at hafter
  rw [← hmapped] at hresult
  unfold Play.grant
  dsimp only
  revert hafter hresult
  generalize Play.step p m = stepped
  obtain ⟨p', result⟩ := stepped
  intro hafter hresult
  dsimp only at hafter hresult
  cases result with
  | ok led =>
    cases led with
    | true => exact ⟨p', rfl, hafter⟩
    | false => exact ⟨_, rfl, say_agree hafter _⟩
  | error e =>
    cases e with
    | interrupted cause => exact absurd hresult.symm (hran cause)
    | _ => exact ⟨_, rfl, say_agree hafter _⟩

theorem ask_of_lines {d : Desk} {line : String} {rest : List String} (h : d.lines = line :: rest)
    (message : String) : ∃ d', d.ask message = (some line, d') ∧ d'.lines = rest := by
  unfold Desk.ask Desk.show_
  dsimp only
  rw [h]
  exact ⟨_, rfl, rfl⟩

/-- A turn reads a line and grants what it wants. -/
theorem turns_succ {p : Player Desk} {q : Player (List String)} (h : p.Agree IsLeft q) {line : String}
    {rest : List String} (hdesk : q.desk = line :: rest) (fuel : Nat) :
    ∃ p' : Player Desk, p'.Agree IsLeft { q with desk := rest } ∧
      Play.turns (fuel + 1) p =
        match Play.grant p' (Wish.ofLine line) with
        | (p, some ending) => (p, ending)
        | (p, none) => Play.turns fuel p := by
  have hsaid := say_agree h (p.story.elim [] fun s => viewLines s.view)
  rw [Play.turns]
  generalize Play.say p (p.story.elim [] fun s => viewLines s.view) = said at hsaid ⊢
  obtain ⟨d, hask, hd⟩ := ask_of_lines (hsaid.desk.trans hdesk) ">"
  rw [hask]
  refine ⟨{ said with desk := d }, ⟨hsaid.story, hd, hsaid.asked, hsaid.skipped⟩, ?_⟩
  cases hgrant : Play.grant { said with desk := d } (Wish.ofLine line) with
  | mk after ending => cases ending <;> simp only [hgrant]

theorem turns_snag {p : Player Desk} {q : Player (List String)} (h : p.Agree IsLeft q) {line : String}
    {rest : List String} (hdesk : q.desk = line :: rest) (hsnag : IsSnag line) (fuel : Nat) :
    ∃ p' c, Play.turns (fuel + 1) p = (p', .crashed c) := by
  obtain ⟨p', -, hturns⟩ := turns_succ h hdesk fuel
  obtain ⟨c, hcrash⟩ := ofLine_snag hsnag
  rw [hturns, hcrash]
  exact ⟨p', c, rfl⟩

/-- All turns, up to the command to quit or to the first snag. -/
theorem turns_of_plays {q q' : Player (List String)} {read : List String} (h : Plays q read q')
    {fuel : Nat} (hfuel : read.length ≤ fuel) {p : Player Desk} (hp : p.Agree IsLeft q) :
    ((∀ line ∈ read, ¬ IsSnag line) →
      ∃ p', Play.turns fuel p = (p', .quit) ∧ p'.Agree IsLeft q') ∧
    (¬ (∀ line ∈ read, ¬ IsSnag line) → ∃ p' c, Play.turns fuel p = (p', .crashed c)) := by
  induction h generalizing fuel p with
  | @quit q line rest hdesk hquit =>
    obtain ⟨fuel, rfl⟩ := Nat.exists_eq_add_of_le' hfuel
    obtain ⟨p', hp', hturns⟩ := turns_succ hp hdesk fuel
    rw [List.length_singleton, hturns, ofLine_quit hquit]
    have hsnag : ¬ IsSnag line := not_isSnag hquit (by decide)
    exact ⟨fun _ => ⟨p', rfl, hp'⟩, fun hsome => absurd (by simpa using hsnag) hsome⟩
  | @stay q q' line rest read hdesk hquit hmove _ ih =>
    obtain ⟨fuel, rfl⟩ := Nat.exists_eq_add_of_le' hfuel
    rw [List.length_cons, ← Nat.add_assoc, List.forall_mem_cons]
    by_cases hsnag : IsSnag line
    · exact ⟨fun h => absurd hsnag h.1, fun _ => turns_snag hp hdesk hsnag _⟩
    · obtain ⟨p', hp', hturns⟩ := turns_succ hp hdesk (fuel + read.length)
      rw [hturns, ofLine_move hquit hsnag, hmove]
      dsimp only [Play.grant]
      rw [and_iff_right hsnag]
      exact ih (Nat.le_add_left _ _) (say_agree hp' _)
  | @move q q' line rest read m hdesk hquit hmove hran _ ih =>
    obtain ⟨fuel, rfl⟩ := Nat.exists_eq_add_of_le' hfuel
    rw [List.length_cons, ← Nat.add_assoc, List.forall_mem_cons]
    by_cases hsnag : IsSnag line
    · exact ⟨fun h => absurd hsnag h.1, fun _ => turns_snag hp hdesk hsnag _⟩
    · obtain ⟨p', hp', hturns⟩ := turns_succ hp hdesk (fuel + read.length)
      obtain ⟨p'', hgrant, hp''⟩ := grant_move hp' hran
      rw [hturns, ofLine_move hquit hsnag, hmove]
      dsimp only
      rw [hgrant, and_iff_right hsnag]
      exact ih (Nat.le_add_left _ _) hp''

theorem Plays.isSome {p q : Player (List String)} {read : List String} (h : Plays p read q)
    (hp : p.story.isSome = true) : q.story.isSome = true := by
  induction h with
  | quit => exact hp
  | stay _ _ _ _ ih => exact ih hp
  | @move p _ _ rest _ m _ _ _ _ _ ih =>
    exact ih (Player.move_isSome (some .ofLines) (p := { p with desk := rest }) hp m)

/-! ## Sessions -/

theorem readStory_of_text {folder : Folder} {file text : String} {s : Story}
    (hfile : folder.read file = .ok text) (hstory : Story.ofText text = .ok s) :
    readStory folder file = .ok s := by
  unfold readStory
  rw [hfile]
  dsimp only
  rw [hstory]

theorem written_of_readStory {folder : Folder} {file : String} {s : Story}
    (h : readStory folder file = .ok s) (text : String) : ∃ after, folder.write file text = .ok after := by
  obtain ⟨content, hcontent⟩ : ∃ content, folder.read file = .ok content := by
    unfold readStory at h
    cases hread : folder.read file with
    | ok content => exact ⟨content, rfl⟩
    | error fault => rw [hread] at h; cases h
  unfold Folder.read Folder.find at hcontent
  unfold Folder.write
  cases hplace : folder.place file with
  | error fault =>
    rw [hplace] at hcontent
    cases hcontent
  | ok place =>
    rw [hplace] at hcontent
    dsimp only [bind, Except.bind, Except.map] at hcontent ⊢
    cases hentry : folder.entry? place with
    | none => exact ⟨_, rfl⟩
    | some entry =>
      rw [hentry] at hcontent
      cases entry with
      | directory => cases hcontent
      | sink => exact ⟨_, rfl⟩
      | file content => exact ⟨_, rfl⟩

theorem load_of_sections {σ : Type} {s : Story} (h : s.sections ≠ []) (desk : σ) :
    (Player.idle desk).load (some s) = (⟨some s.started, desk, [], []⟩, .ok ()) := by
  unfold Player.load
  dsimp only
  rw [if_neg (by rwa [List.isEmpty_iff])]
  rfl

def afterTurns (folder : Folder) (file : String) (save : Bool) (p : Player Desk) :
    PlayEnding → Session
  | .aborted => ⟨folder, p.desk.shown ++ [.err "Aborted.\n"], .aborted⟩
  | .crashed c => .crash folder p.desk.shown c
  | .quit =>
    match p.story, save with
    | some s, true => .writtenStory folder p.desk.shown file s "Saved story to "
    | _, _ => ⟨folder, p.desk.shown, .done⟩

theorem runPlay_of_turns {folder : Folder} {file : String} {s : Story} {lines : List String}
    (hread : readStory folder file = .ok s) (hsections : s.sections ≠ []) (save : Bool)
    {p : Player Desk} {ending : PlayEnding}
    (hturns : Play.turns lines.length ⟨some s.started, ⟨lines, []⟩, [], []⟩ = (p, ending)) :
    runPlay folder lines file save = afterTurns folder file save p ending := by
  unfold runPlay
  rw [hread]
  dsimp only
  rw [load_of_sections hsections]
  dsimp only
  rw [hturns]
  obtain ⟨story, desk, asked, skipped⟩ := p
  cases ending with
  | aborted => rfl
  | crashed c => rfl
  | quit => cases story <;> cases save <;> rfl

/-- A story that may be written is saved to the file it was read from; one that may not be written
crashes the program. -/
theorem writtenStory_of_readStory {folder : Folder} {file : String} {s : Story}
    (hread : readStory folder file = .ok s) (shown : List Shown) (t : Story) (verb : String) :
    (t.isWritable = true → (Session.writtenStory folder shown file t verb).ending = .done ∧
      folder.write file t.prettyText = .ok (Session.writtenStory folder shown file t verb).folder) ∧
    (¬ t.isWritable = true →
      Session.writtenStory folder shown file t verb = .crash folder shown (.write .tooDeep)) := by
  unfold Session.writtenStory Story.writePretty Story.write
  constructor
  · intro hwritable
    obtain ⟨after, hafter⟩ := written_of_readStory hread t.prettyText
    have hwritten : folder.write file t.toJson.pretty = .ok after := hafter
    rw [if_pos hwritable]
    dsimp only [Except.map]
    unfold Session.written
    rw [hwritten]
    exact ⟨rfl, hafter⟩
  · intro hdeep
    rw [if_neg hdeep]
    rfl

/-- The player who takes the moves that the typed lines name ends with a story.  The session ends well
exactly when none of the lines read as commands is a snag and the story, if it is to be saved, may be
written; its file then holds that story.  Otherwise the program crashes and the files are as they
were. -/
theorem play_ends_iff {folder : Folder} {file : String} {s : Story} {lines read : List String}
    {q : Player (List String)} (save : Bool) (hread : readStory folder file = .ok s)
    (hsections : s.sections ≠ [])
    (hplays : Plays ((Player.idle lines).load (some s)).1 read q) :
    ∃ t, q.story = some t ∧
      ((runPlay folder lines file save).ending = .done ↔
        (∀ line ∈ read, ¬ IsSnag line) ∧ (save = true → t.isWritable = true)) ∧
      ((runPlay folder lines file save).ending = .done →
        if save then folder.write file t.prettyText = .ok (runPlay folder lines file save).folder
        else (runPlay folder lines file save).folder = folder) ∧
      ((runPlay folder lines file save).ending ≠ .done →
        (∃ c, (runPlay folder lines file save).ending = .crashed c) ∧
          (runPlay folder lines file save).folder = folder) := by
  rw [load_of_sections hsections] at hplays
  obtain ⟨t, ht⟩ := Option.isSome_iff_exists.1 (hplays.isSome rfl)
  have hagree : Player.Agree IsLeft (⟨some s.started, ⟨lines, []⟩, [], []⟩ : Player Desk)
      ⟨some s.started, lines, [], []⟩ := ⟨rfl, rfl, rfl, rfl⟩
  obtain ⟨hquit, hcrash⟩ := turns_of_plays hplays hplays.length_le hagree
  refine ⟨t, ht, ?_⟩
  by_cases hsnags : ∀ line ∈ read, ¬ IsSnag line
  · obtain ⟨p, hturns, hp⟩ := hquit hsnags
    rw [runPlay_of_turns hread hsections save hturns]
    unfold afterTurns
    dsimp only
    rw [hp.story.trans ht]
    cases save with
    | false =>
      exact ⟨iff_of_true rfl ⟨hsnags, fun h => nomatch h⟩, fun _ => rfl, fun h => absurd rfl h⟩
    | true =>
      obtain ⟨hsaved, hdeep⟩ := writtenStory_of_readStory hread p.desk.shown t "Saved story to "
      by_cases hwritable : t.isWritable = true
      · obtain ⟨hdone, hfile⟩ := hsaved hwritable
        exact ⟨iff_of_true hdone ⟨hsnags, fun _ => hwritable⟩, fun _ => hfile,
          fun h => absurd hdone h⟩
      · dsimp only
        rw [hdeep hwritable]
        refine ⟨iff_of_false ?_ fun h => hwritable (h.2 rfl), ?_, fun _ => ⟨⟨_, rfl⟩, rfl⟩⟩
        · exact fun h => nomatch h
        · exact fun h => nomatch h
  · obtain ⟨p, c, hturns⟩ := hcrash hsnags
    rw [runPlay_of_turns hread hsections save hturns]
    refine ⟨iff_of_false ?_ fun h => hsnags h.1, ?_, fun _ => ⟨⟨c, rfl⟩, rfl⟩⟩
    · exact fun h => nomatch h
    · exact fun h => nomatch h

/-- A gate whose keeper asks for a name. -/
def gateDocument : Json :=
  .obj [("sections", .obj
    [("1", .obj [("id", .str "1"), ("text_lines", .arr [.str "A gate."]),
      ("next", .arr [.obj [("text", .str "Knock"), ("next", .str "2")]])]),
     ("2", .obj [("id", .str "2"), ("text_lines", .arr [.str "The keeper."]),
      ("script", .arr [.obj [("action", .str "INPUT"),
        ("parameters", .arr [.str "name", .str "Who knocks"])]])])])]

def gate : Story :=
  { Story.fresh with
    sections :=
      [("1", { Section.ofLines "1" ["A gate."] with next := .value [.added "2" "Knock"] }),
       ("2", { Section.ofLines "2" ["The keeper."] with
          script := .value [⟨"INPUT", some ["name", "Who knocks"], []⟩] })] }

def gateFolder : Folder := ⟨[(⟨.above 0, ["s"]⟩, .file (.text gateDocument.compact))]⟩

theorem proper_gateDocument : gateDocument.Proper := by
  simp [gateDocument, Json.Proper, Json.ProperFields, Json.ProperItems, Table.keys]

theorem lineFeedChars_of_noReturn {cs : List Char} (h : '\r' ∉ cs) : Text.lineFeedChars cs = cs := by
  induction cs with
  | nil => rfl
  | cons c cs ih =>
    rw [List.mem_cons, not_or] at h
    rw [Text.lineFeedChars, ih h.2]
    · rintro rest rfl
      exact absurd rfl h.1
    · exact fun hc => h.1 hc.symm

/-- A text without carriage returns, in the only file of a folder, is read as it is. -/
theorem read_only {text : String} (h : '\r' ∉ text.toList) :
    (⟨[(⟨.above 0, ["s"]⟩, .file (.text text))]⟩ : Folder).read "s" = .ok text := by
  have hsplit : "s".splitOn "/" = ["s"] := by
    rw [String.splitOn, if_neg (by decide), String.splitOnAux, if_neg (by decide), if_neg (by decide),
      String.splitOnAux, if_pos (by decide)]
    decide
  have hparts : pathParts "s" = ["s"] := by
    unfold pathParts
    rw [hsplit]
    decide
  have hplace : (⟨[(⟨.above 0, ["s"]⟩, .file (.text text))]⟩ : Folder).place "s" = .ok ⟨.above 0, ["s"]⟩ := by
    unfold Folder.place
    rw [hparts]
    rfl
  have htext : Text.lineFeeds text = text := by
    rw [Text.lineFeeds, lineFeedChars_of_noReturn h, String.ofList_toList]
  unfold Folder.read Folder.find
  rw [hplace]
  show Except.ok (Text.lineFeeds text) = _
  rw [htext]

theorem read_gateFolder : gateFolder.read "s" = .ok gateDocument.compact := by
  refine read_only ?_
  unfold Json.compact Json.write
  rw [String.toList_ofList]
  decide +kernel

theorem readStory_gate : readStory gateFolder "s" = .ok gate :=
  readStory_of_text read_gateFolder
    (Story.ofText_of_read (Json.read_write _ proper_gateDocument (by decide)) rfl)

/-- The name that is asked for is read between the commands. -/
theorem play_ends_gate : ∃ q t, readStory gateFolder "s" = .ok gate ∧
    Plays ((Player.idle ["1", "Ada", " ", "q"]).load (some gate)).1 ["1", " ", "q"] q ∧
    q.story = some t ∧ t.variableValues = [("name", "Ada")] ∧
    let session := runPlay gateFolder ["1", "Ada", " ", "q"] "s" true
    session.ending = .done ∧ gateFolder.write "s" t.prettyText = .ok session.folder := by
  have hone : commandOf "1" = "1" := commandOf_small (c := '1') (by decide) (by decide)
  have hquit : commandOf "q" = "q" := commandOf_small (c := 'q') (by decide) (by decide)
  have hblank : commandOf " " = "" := by decide
  have hfirst : moveOf? "1" = some (.choose 0) := by
    unfold moveOf?
    rw [hone]
    decide +kernel
  have hnone : moveOf? " " = none := by
    unfold moveOf?
    rw [hblank]
    decide +kernel
  obtain ⟨q, hplays, t, ht, hwritable, hvalues⟩ : ∃ q,
      Plays ((Player.idle ["1", "Ada", " ", "q"]).load (some gate)).1 ["1", " ", "q"] q ∧
      ∃ t, q.story = some t ∧ t.isWritable = true ∧ t.variableValues = [("name", "Ada")] := by
    refine ⟨_, .move rfl ?_ hfirst (fun _ h => nomatch h) (.stay rfl ?_ hnone (.quit rfl hquit)),
      _, rfl, by decide, rfl⟩
    · rw [hone]
      decide
    · rw [hblank]
      decide
  obtain ⟨t', ht', hiff, hfile, -⟩ := play_ends_iff true readStory_gate (List.cons_ne_nil _ _) hplays
  cases ht.symm.trans ht'
  have hsnags : ∀ line ∈ ["1", " ", "q"], ¬ IsSnag line := by
    simp only [List.forall_mem_cons]
    refine ⟨?_, fun h => h.1 hblank, not_isSnag hquit (by decide), List.forall_mem_nil _⟩
    unfold IsSnag
    rw [hone]
    decide +kernel
  have hdone := hiff.2 ⟨hsnags, fun _ => hwritable⟩
  exact ⟨q, t, readStory_gate, hplays, ht, hvalues, hdone, hfile hdone⟩

/-- A superscript digit names no move, and the session crashes at it. -/
theorem superscript_crashes : ∃ q, readStory gateFolder "s" = .ok gate ∧ moveOf? "²" = none ∧
    Plays ((Player.idle ["²", "q"]).load (some gate)).1 ["²", "q"] q ∧
    (runPlay gateFolder ["²", "q"] "s" true).ending = .crashed (.notNumber "²") ∧
    (runPlay gateFolder ["²", "q"] "s" true).folder = gateFolder := by
  have hquit : commandOf "q" = "q" := commandOf_small (c := 'q') (by decide) (by decide)
  have hsuperscript : commandOf "²" = "²" := commandOf_small (c := '²') (by decide) (by decide)
  have hmove : moveOf? "²" = none := by
    unfold moveOf?
    rw [hsuperscript]
    decide +kernel
  have hline : Wish.ofLine "²" = .crash (.notNumber "²") := by
    rw [ofLine_eq, hsuperscript]
    decide +kernel
  obtain ⟨p, hturns⟩ : ∃ p, Play.turns ["²", "q"].length
      ⟨some gate.started, ⟨["²", "q"], []⟩, [], []⟩ = (p, .crashed (.notNumber "²")) := by
    have hagree : Player.Agree IsLeft (⟨some gate.started, ⟨["²", "q"], []⟩, [], []⟩ : Player Desk)
        ⟨some gate.started, ["²", "q"], [], []⟩ := ⟨rfl, rfl, rfl, rfl⟩
    obtain ⟨p, -, hturns⟩ := turns_succ hagree rfl 1
    refine ⟨p, ?_⟩
    rw [List.length_cons, List.length_singleton, hturns, hline]
    rfl
  refine ⟨_, readStory_gate, hmove, .stay rfl ?_ hmove (.quit rfl hquit), ?_⟩
  · rw [hsuperscript]
    decide
  · rw [runPlay_of_turns readStory_gate (List.cons_ne_nil _ _) true hturns]
    exact ⟨rfl, rfl⟩

end Terminal

end Gamebook
