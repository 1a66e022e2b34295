import ArchiveExport.Proofs.Disk.Folders

/-!
# Disks that differ in a log file

Two disks have the same at every place but that of a log file, whose data may differ. The log file
is a file on both of them, so every text leads to the same place, and an access succeeds on both
disks or fails on both. Only what is read from the log file tells them apart.
-/

namespace ArchiveExport.Disk

variable {d e f : Disk} {log : Option Path} {place working : Path} {text : String} {data : Bytes}

/-- The disks are the same but for what is in a log file. -/
def AlikeBut (log : Option Path) (d e : Disk) : Prop :=
  ∀ place, e.node? place = d.node? place ∨
    log = some place ∧ (d.file? place).isSome ∧ (e.file? place).isSome

/-- Two accesses fail alike, or they leave disks that are the same but for a log file. -/
inductive EndAlike (log : Option Path) : Except Fault Disk → Except Fault Disk → Prop
  | error (fault : Fault) : EndAlike log (.error fault) (.error fault)
  | ok {d e : Disk} (h : d.AlikeBut log e) : EndAlike log (.ok d) (.ok e)

/-- Two accesses have the same answer, and they leave disks that are the same but for a log file. -/
def AnswersAlike {α : Type} (log : Option Path) (left right : Disk × α) : Prop :=
  right.2 = left.2 ∧ left.1.AlikeBut log right.1

namespace AlikeBut

theorem refl (log : Option Path) (d : Disk) : d.AlikeBut log d :=
  fun _ => Or.inl rfl

theorem symm (h : d.AlikeBut log e) : e.AlikeBut log d := by
  intro place
  rcases h place with hsame | ⟨hlog, hfile, hfile'⟩
  · exact Or.inl hsame.symm
  · exact Or.inr ⟨hlog, hfile', hfile⟩

theorem node?_eq (h : d.AlikeBut log e) (hplace : log ≠ some place) :
    e.node? place = d.node? place :=
  (h place).resolve_right fun ⟨hlog, _⟩ => hplace hlog

theorem node?_cases (h : d.AlikeBut log e) (place : Path) :
    e.node? place = d.node? place ∨
      ∃ data data', d.node? place = some (.file data) ∧ e.node? place = some (.file data') := by
  rcases h place with hsame | ⟨-, hfile, hfile'⟩
  · exact Or.inl hsame
  · obtain ⟨data, hdata⟩ := Option.isSome_iff_exists.mp hfile
    obtain ⟨data', hdata'⟩ := Option.isSome_iff_exists.mp hfile'
    exact Or.inr ⟨data, data', node?_eq_file_iff.mp hdata, node?_eq_file_iff.mp hdata'⟩

/-- The same put on both disks leaves them alike. -/
theorem put (h : d.AlikeBut log e) (hne : place ≠ []) (node : Node) :
    (d.put place node).AlikeBut log (e.put place node) := by
  intro other
  rw [node?_put hne, node?_put hne]
  by_cases hother : other = place
  · left
    rw [if_pos hother, if_pos hother]
  · rw [if_neg hother, if_neg hother, file?, file?, node?_put hne, node?_put hne, if_neg hother,
      if_neg hother]
    exact h other

/-- What is added to the log file makes no difference. -/
theorem append_right (h : d.AlikeBut log e) (hlog : log = some place) (data : Bytes) :
    d.AlikeBut log (e.append place data) := by
  rw [append]
  split
  next before hfile =>
    have hne : place ≠ [] := by
      rintro rfl
      simp [file?, node?] at hfile
    intro other
    by_cases hother : other = place
    · subst hother
      right
      refine ⟨hlog, ?_, by simp [file?, node?_put hne]⟩
      rcases h other with hsame | ⟨-, hthere, -⟩
      · rw [file?, ← hsame, ← file?, hfile, Option.isSome_some]
      · exact hthere
    · rw [node?_put hne, file?, file?, node?_put hne, if_neg hother]
      exact h other
  next => exact h

/-! ### Where texts lead -/

theorem walk_eq (h : d.AlikeBut log e) (place : Path) (names : List String) :
    e.walk place names = d.walk place names := by
  induction names generalizing place with
  | nil => rfl
  | cons name names ih =>
      rw [walk, walk, ih]
      rcases h.node?_cases place with hsame | ⟨data, data', hfile, hfile'⟩
      · rw [hsame]
      · rw [hfile, hfile']

theorem locate_eq (h : d.AlikeBut log e) (working : Path) (text : String) :
    e.locate working text = d.locate working text := by
  rw [locate, locate, h.walk_eq]

theorem hasFolder_eq (h : d.AlikeBut log e) (place : Path) :
    e.hasFolder place = d.hasFolder place := by
  rcases h.node?_cases place with hsame | ⟨data, data', hfile, hfile'⟩
  · rw [hasFolder, hasFolder, hsame]
  · simp [hasFolder, hfile, hfile']

theorem isSome_node?_eq (h : d.AlikeBut log e) (place : Path) :
    (e.node? place).isSome = (d.node? place).isSome := by
  rcases h.node?_cases place with hsame | ⟨data, data', hfile, hfile'⟩
  · rw [hsame]
  · rw [hfile, hfile', Option.isSome_some, Option.isSome_some]

theorem isFolder_eq (h : d.AlikeBut log e) (working : Path) (text : String) :
    e.isFolder working text = d.isFolder working text := by
  rw [isFolder, isFolder, look, look, h.locate_eq]
  cases d.locate working text with
  | error fault => rfl
  | ok place =>
      simp only [bind, Except.bind]
      rcases h.node?_cases place with hsame | ⟨data, data', hfile, hfile'⟩
      · rw [hsame]
      · rw [hfile, hfile']
        rfl

theorem has_eq (h : d.AlikeBut log e) (working : Path) (text : String) :
    e.has working text = d.has working text := by
  rw [has, has, look, look, h.locate_eq]
  cases d.locate working text with
  | error fault => rfl
  | ok place =>
      simp only [bind, Except.bind]
      rcases h.node?_cases place with hsame | ⟨data, data', hfile, hfile'⟩
      · rw [hsame]
      · rw [hfile, hfile']
        rfl

/-- A text that does not lead to the log file leads to the same on both disks. -/
theorem look_eq (h : d.AlikeBut log e)
    (hplace : ∀ place, d.locate working text = .ok place → log ≠ some place) :
    e.look working text = d.look working text := by
  rw [look, look, h.locate_eq]
  cases hlocate : d.locate working text with
  | error fault => rfl
  | ok place =>
      simp only [bind, Except.bind, h.node?_eq (hplace place hlocate)]

theorem read_eq (h : d.AlikeBut log e)
    (hplace : ∀ place, d.locate working text = .ok place → log ≠ some place) :
    e.read working text = d.read working text := by
  rw [read, read, h.look_eq hplace]

/-! ### Folders and files that are made -/

theorem endAlike_makeFolder (h : d.AlikeBut log e) (working : Path) (text : String) :
    EndAlike log (d.makeFolder working text) (e.makeFolder working text) := by
  rw [makeFolder, makeFolder, h.locate_eq]
  generalize (d.locate working _).mapError _ = located
  cases located with
  | error fault => exact .error fault
  | ok place =>
      simp only [bind, Except.bind, h.isSome_node?_eq place]
      split
      next => exact .error _
      next hfree => exact .ok (h.put (ne_nil_of_node?_eq_none (by simpa using hfree)) .folder)

theorem answersAlike_allowFolder (h : d.AlikeBut log e) (working : Path) (text : String) :
    AnswersAlike log (d.allowFolder working text) (e.allowFolder working text) := by
  rw [allowFolder, allowFolder, h.isFolder_eq]
  have hmade := h.endAlike_makeFolder working text
  generalize d.makeFolder working text = made at hmade
  generalize e.makeFolder working text = made' at hmade
  cases hmade with
  | ok hput => exact ⟨rfl, hput⟩
  | error fault =>
      cases fault with
      | nulInText => exact ⟨rfl, h⟩
      | refused refusal other =>
          simp only
          split
          · exact ⟨rfl, h⟩
          · exact ⟨rfl, h⟩

theorem answersAlike_makeFoldersFrom (h : d.AlikeBut log e) (working : Path) (fuel : Nat)
    (text : String) :
    AnswersAlike log (makeFoldersFrom working fuel d text)
      (makeFoldersFrom working fuel e text) := by
  induction fuel generalizing text with
  | zero => exact h.answersAlike_allowFolder working text
  | succ fuel ih =>
      rw [makeFoldersFrom, makeFoldersFrom]
      generalize (if Path.base text = "" then _ else _ : String × String) = cut
      obtain ⟨head, tail⟩ := cut
      simp only [h.has_eq]
      split
      · obtain ⟨hanswer, habove⟩ := ih head
        generalize makeFoldersFrom working fuel d head = above at hanswer habove
        generalize makeFoldersFrom working fuel e head = above' at hanswer habove
        obtain ⟨made, answer⟩ := above
        obtain ⟨made', answer'⟩ := above'
        obtain rfl : answer' = answer := hanswer
        have hhere : AnswersAlike log
            (if tail = "." then (made, .ok ()) else made.allowFolder working text)
            (if tail = "." then (made', .ok ()) else made'.allowFolder working text) := by
          split
          · exact ⟨rfl, habove⟩
          · exact habove.answersAlike_allowFolder working text
        cases answer' with
        | ok _ => exact hhere
        | error fault =>
            cases fault with
            | nulInText => exact ⟨rfl, habove⟩
            | refused refusal other =>
                cases refusal with
                | «exists» => exact hhere
                | _ => exact ⟨rfl, habove⟩
      · exact h.answersAlike_allowFolder working text

theorem answersAlike_makeFolders (h : d.AlikeBut log e) (working : Path) (text : String) :
    AnswersAlike log (d.makeFolders working text) (e.makeFolders working text) :=
  h.answersAlike_makeFoldersFrom working text.length text

theorem endAlike_write (h : d.AlikeBut log e) (working : Path) (text : String) (data : Bytes) :
    EndAlike log (d.write working text data) (e.write working text data) := by
  rw [write, write, h.locate_eq, h.locate_eq]
  split
  next =>
    generalize (d.locate working (withoutSlashes text)).mapError _ = located
    cases located with
    | error fault => exact .error fault
    | ok place => exact .error _
  next =>
    cases d.locate working text with
    | error fault => exact .error fault
    | ok place =>
        simp only [bind, Except.bind, h.hasFolder_eq place]
        split
        next => exact .error _
        next hfree =>
          have hne : place ≠ [] := by
            rintro rfl
            simp [hasFolder, node?] at hfree
          exact .ok (h.put hne (.file data))

end AlikeBut

end ArchiveExport.Disk
