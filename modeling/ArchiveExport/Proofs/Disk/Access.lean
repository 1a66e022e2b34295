import ArchiveExport.Disk.Access
import ArchiveExport.Proofs.Data.OrderedMap
import ArchiveExport.Proofs.Disk.Path

/-!
# What an access changes

Writing a file changes what is at its place and nothing else. Making folders adds folders where
there is nothing, even where it fails halfway. Where a text leads depends on nothing but the folders
on the way.
-/

namespace ArchiveExport.Disk

variable {d e f : Disk} {place working : Path} {text : String}

theorem node?_put {node : Node} (h : place ≠ []) (other : Path) :
    (d.put place node).node? other = if other = place then some node else d.node? other := by
  rw [node?, node?, put, OrderedMap.find?_insert]
  by_cases htop : other = []
  · simp [htop, h.symm]
  · simp [htop]

/-- The second disk is the first one with folders in places where there was nothing. -/
def Grows (d e : Disk) : Prop :=
  ∀ place, e.node? place = d.node? place ∨ (d.node? place = none ∧ e.node? place = some .folder)

theorem Grows.refl (d : Disk) : d.Grows d := fun _ => Or.inl rfl

theorem Grows.trans (h : d.Grows e) (h' : e.Grows f) : d.Grows f := by
  intro place
  rcases h place with hsame | ⟨hnone, hfolder⟩
  · rw [← hsame]
    exact h' place
  · right
    refine ⟨hnone, ?_⟩
    rcases h' place with hsame | ⟨hnone', -⟩
    · rw [hsame, hfolder]
    · rw [hfolder] at hnone'
      simp at hnone'

theorem Grows.file? (h : d.Grows e) (place : Path) : e.file? place = d.file? place := by
  rw [Disk.file?, Disk.file?]
  rcases h place with hsame | ⟨hnone, hfolder⟩
  · rw [hsame]
  · rw [hnone, hfolder]

/-- No folder of the first disk is missing on the second one. -/
def Keeps (d e : Disk) : Prop :=
  ∀ place, d.node? place = some .folder → e.node? place = some .folder

theorem Grows.keeps (h : d.Grows e) : d.Keeps e := by
  intro place hfolder
  rcases h place with hsame | ⟨hnone, -⟩
  · rw [hsame, hfolder]
  · rw [hfolder] at hnone
    simp at hnone

/-! ### Making folders -/

theorem ne_nil_of_node?_eq_none (h : d.node? place = none) : place ≠ [] := by
  rintro rfl
  simp [node?] at h

theorem grows_put_folder (h : d.node? place = none) : d.Grows (d.put place .folder) := by
  intro other
  rw [node?_put (ne_nil_of_node?_eq_none h)]
  by_cases hother : other = place
  · right
    rw [hother]
    exact ⟨h, if_pos rfl⟩
  · exact Or.inl (if_neg hother)

theorem grows_of_makeFolder_eq_ok (h : d.makeFolder working text = .ok e) : d.Grows e := by
  rw [makeFolder] at h
  generalize (d.locate working _).mapError _ = located at h
  cases located with
  | error fault => simp [bind, Except.bind] at h
  | ok place =>
      by_cases hthere : (d.node? place).isSome
      · simp [bind, Except.bind, hthere, throw, throwThe, MonadExceptOf.throw] at h
      · simp [bind, Except.bind, hthere, pure, Except.pure] at h
        rw [← h]
        exact grows_put_folder (by simpa using hthere)

theorem grows_allowFolder (d : Disk) (working : Path) (text : String) :
    d.Grows (d.allowFolder working text).1 := by
  rw [allowFolder]
  cases hmade : d.makeFolder working text with
  | ok e => exact grows_of_makeFolder_eq_ok hmade
  | error fault =>
      cases fault with
      | nulInText => exact .refl d
      | refused refusal other =>
          simp only
          split
          · exact .refl d
          · exact .refl d

theorem grows_makeFoldersFrom (working : Path) (fuel : Nat) (d : Disk) (text : String) :
    d.Grows (makeFoldersFrom working fuel d text).1 := by
  induction fuel generalizing d text with
  | zero => exact grows_allowFolder d working text
  | succ fuel ih =>
      rw [makeFoldersFrom]
      generalize (if Path.base text = "" then _ else _ : String × String) = cut
      obtain ⟨head, tail⟩ := cut
      simp only
      split
      · have habove := ih d head
        generalize makeFoldersFrom working fuel d head = above at habove ⊢
        have hhere : d.Grows (if tail = "." then ((above.1, .ok ()) : Disk × Except Fault Unit)
            else above.1.allowFolder working text).1 := by
          split
          · exact habove
          · exact habove.trans (grows_allowFolder above.1 working text)
        split
        · exact hhere
        · exact hhere
        · exact habove
      · exact grows_allowFolder d working text

theorem grows_makeFolders (d : Disk) (working : Path) (text : String) :
    d.Grows (d.makeFolders working text).1 :=
  grows_makeFoldersFrom working text.length d text

/-! ### Following texts -/

variable {names : List String} {last : Path}

/-- A walk succeeds where every place in front of the last one is a folder and no name is too long.
It leads where the names lead. -/
theorem walk_eq_ok_iff :
    d.walk place names = .ok last ↔
      last = Path.follow place names ∧ (∀ name ∈ names, name.utf8ByteSize ≤ maxName) ∧
        ∀ start, start <+: names → start ≠ names →
          d.node? (Path.follow place start) = some .folder := by
  induction names generalizing place with
  | nil => simp [walk, Path.follow, eq_comm]
  | cons name names ih =>
      have hstarts : (∀ start, start <+: name :: names → start ≠ name :: names →
            d.node? (Path.follow place start) = some .folder) ↔
          d.node? place = some .folder ∧ ∀ start, start <+: names → start ≠ names →
            d.node? (Path.follow (Path.step place name) start) = some .folder := by
        constructor
        · intro h
          exact ⟨h [] List.nil_prefix (by simp), fun start hstart hne =>
            h (name :: start) (List.cons_prefix_cons.mpr ⟨rfl, hstart⟩) (by simpa using hne)⟩
        · rintro ⟨hfolder, h⟩ start hstart hne
          rcases List.prefix_cons_iff.mp hstart with rfl | ⟨start, rfl, hrest⟩
          · exact hfolder
          · exact h start hrest (by simpa using hne)
      rw [hstarts, List.forall_mem_cons]
      by_cases hfolder : d.node? place = some .folder
      · by_cases hsize : name.utf8ByteSize ≤ maxName
        · simp only [walk, hfolder, if_neg (Nat.not_lt.mpr hsize), ih, hsize, true_and]
          rfl
        · simp [walk, hfolder, Nat.not_le.mp hsize, hsize]
      · have hstops : d.walk place (name :: names) ≠ .ok last := by
          rw [walk]
          split
          · simp
          · simp
          · next hthere => exact absurd hthere hfolder
        simp [hstops, hfolder]

theorem locate_eq_ok_iff :
    d.locate working text = .ok place ↔
      Char.ofNat 0 ∉ text.toList ∧ text ≠ "" ∧ text.utf8ByteSize ≤ maxText ∧
        d.walk (if Path.isAbsolute text then [] else working) (Text.split '/' text) =
          .ok place := by
  rw [locate]
  split
  · next hnul => simp [List.contains_iff_mem.mp hnul]
  next hnul =>
    split
    · next hempty => simp [hempty]
    next hempty =>
      split
      · next hlong => simp [Nat.not_le.mpr hlong]
      next hlong =>
        have hmap : ∀ result : Except Refusal Path,
            result.mapError (Fault.refused · text) = .ok place ↔ result = .ok place := by
          intro result
          cases result <;> simp [Except.mapError]
        rw [hmap]
        simp_all

/-- The text of a normalized path leads to its place where the places above are folders, no name
is too long or has a NUL in it, and the text is not too long. -/
theorem locate_text_eq_ok_iff {p : AbsolutePath} (hp : p.Normal) (hne : p.place ≠ []) :
    d.locate working p.text = .ok place ↔
      place = p.place ∧ p.text.utf8ByteSize ≤ maxText ∧
        (∀ name ∈ p.place, name.utf8ByteSize ≤ maxName ∧ Char.ofNat 0 ∉ name.toList) ∧
          ∀ above, above <+: p.place → above ≠ p.place → d.node? above = some .folder := by
  have hnul : Char.ofNat 0 ∉ p.text.toList ↔ ∀ name ∈ p.place, Char.ofNat 0 ∉ name.toList := by
    rw [Text.mem_toList_iff (show Char.ofNat 0 ≠ '/' by decide), AbsolutePath.split_text hp hne]
    constructor
    · exact fun h name hname hmem => h ⟨name, List.mem_append_right _ hname, hmem⟩
    · rintro h ⟨piece, hpiece, hmem⟩
      rcases List.mem_append.mp hpiece with hblank | hname
      · simp [AbsolutePath.eq_empty_of_mem_blanks hblank] at hmem
      · exact h piece hname hmem
  have hsizes : (∀ name ∈ Text.split '/' p.text, name.utf8ByteSize ≤ maxName) ↔
      ∀ name ∈ p.place, name.utf8ByteSize ≤ maxName := by
    rw [AbsolutePath.split_text hp hne, List.forall_mem_append]
    exact and_iff_right fun piece hblank => by
      simp [AbsolutePath.eq_empty_of_mem_blanks hblank]
  have htext := AbsolutePath.text_ne_empty hp
  rw [locate_eq_ok_iff, if_pos (AbsolutePath.isAbsolute_text hp), walk_eq_ok_iff,
    AbsolutePath.follow_split_text hp hne, hnul, hsizes,
    AbsolutePath.forall_follow_iff hp hne (motive := fun above => d.node? above = some .folder)]
  simp only [imp_and, forall_and]
  tauto

/-- The text of a normalized path leads to its place or nowhere. -/
theorem eq_place_of_locate_text {p : AbsolutePath} (hp : p.Normal) (hne : p.place ≠ [])
    (h : d.locate working p.text = .ok place) : place = p.place :=
  ((locate_text_eq_ok_iff hp hne).mp h).1

/-- The text of a normalized path still leads to its place where the folders above are still
there. -/
theorem locate_text_of_folders {p : AbsolutePath} (hp : p.Normal) (hne : p.place ≠ [])
    (h : d.locate working p.text = .ok place)
    (hfolders : ∀ above, above <+: p.place →
      d.node? above = some .folder → e.node? above = some .folder) (working' : Path) :
    e.locate working' p.text = .ok place := by
  rw [locate_text_eq_ok_iff hp hne] at h ⊢
  obtain ⟨hplace, hsize, hnames, habove⟩ := h
  exact ⟨hplace, hsize, hnames, fun above hup hbelow =>
    hfolders above hup (habove above hup hbelow)⟩

/-- A path that is joined to a root piece by piece leads where it leads from the root, if that can
be reached. -/
theorem locate_foldl_join {root target : AbsolutePath} {path : String} (hroot : root.Normal)
    (hne : root.place ≠ []) (htarget : target.Normal) (hpath : Path.Descends path)
    (hplace : target.place = Path.follow root.place (Text.split '/' path))
    (hsize : ((Text.split '/' path).foldl Path.join root.text).utf8ByteSize ≤ maxText)
    (h : d.locate working target.text = .ok place) (working' : Path) :
    d.locate working' ((Text.split '/' path).foldl Path.join root.text) = .ok place := by
  obtain ⟨front, last, hsplit, hlast⟩ := hpath.exists_last
  have hpieces : ∀ piece ∈ front ++ [last], '/' ∉ piece.toList ∧ piece ≠ ".." := by
    intro piece hpiece
    rw [← hsplit] at hpiece
    exact ⟨Text.not_mem_of_mem_split hpiece, hpath.noUp piece hpiece⟩
  have hlonger : target.place = Path.follow root.place front ++ [last] := by
    rw [hplace, hsplit, Path.follow_append]
    exact Path.step_of_isName hlast _
  have hne' : target.place ≠ [] := by simp [hlonger]
  obtain ⟨rfl, -, hnames, habove⟩ := (locate_text_eq_ok_iff htarget hne').mp h
  have hfront := (AbsolutePath.leads_text hroot hne).foldl_join fun piece hpiece =>
    hpieces piece (List.mem_append_left _ hpiece)
  have hall := (AbsolutePath.leads_text hroot hne).foldl_join hpieces
  rw [← hsplit, ← hplace] at hall
  rw [locate_eq_ok_iff, if_pos hall.absolute, walk_eq_ok_iff]
  refine ⟨?_, ?_, hsize, hall.follow.symm, ?_, ?_⟩
  · rw [Text.mem_toList_iff (show Char.ofNat 0 ≠ '/' by decide)]
    rintro ⟨piece, hpiece, hnul⟩
    rcases hall.piece piece hpiece with rfl | rfl | hname
    · simp at hnul
    · simp at hnul
    · exact (hnames piece hname).2 hnul
  · exact Path.ne_empty_of_isAbsolute hall.absolute
  · intro piece hpiece
    rcases hall.piece piece hpiece with rfl | rfl | hname
    · decide
    · decide
    · exact (hnames piece hname).1
  · -- the text ends in the last name, so all places in front of it are above the target
    have hjoined : (Text.split '/' path).foldl Path.join root.text =
        Path.join (front.foldl Path.join root.text) last := by
      rw [hsplit, List.foldl_append, List.foldl_cons, List.foldl_nil]
    have hnoUp : ".." ∉ Path.follow root.place front := fun hmem =>
      (htarget.isName ".." (hlonger ▸ List.mem_append_left _ hmem)).ne_up rfl
    rw [hjoined]
    intro start hstart hshort
    have hbefore := hfront.follow_prefix hnoUp (hpieces last (by simp)).1 hstart hshort
    refine habove _ (hlonger ▸ hbefore.trans (List.prefix_append _ _)) fun hsame => ?_
    have hlength := hbefore.length_le
    rw [hsame, hlonger, List.length_append, List.length_singleton] at hlength
    omega

/-- What is read is the file where the text leads. -/
theorem read_of_locate {data : Bytes} (hlocate : d.locate working text = .ok place)
    (hfile : d.file? place = some data) : d.read working text = .ok data := by
  rw [Disk.file?] at hfile
  split at hfile
  next found hnode =>
    obtain rfl := Option.some.inj hfile
    simp [read, look, hlocate, hnode, bind, Except.bind, pure, Except.pure]
  next => simp at hfile

theorem look_of_read {data : Bytes} (h : d.read working text = .ok data) :
    ∃ node, d.look working text = .ok node := by
  cases hlook : d.look working text with
  | error fault => simp [read, hlook, bind, Except.bind] at h
  | ok node => exact ⟨node, rfl⟩

/-- A write that succeeds puts a file where the text leads, and there was no folder. -/
theorem write_eq_ok {data : Bytes} (h : d.write working text data = .ok e) :
    ∃ place, d.locate working text = .ok place ∧ d.node? place ≠ some .folder ∧
      e = d.put place (.file data) := by
  rw [write] at h
  split at h
  · generalize (d.locate working (withoutSlashes text)).mapError _ = located at h
    cases located <;> simp [bind, Except.bind, throw, throwThe, MonadExceptOf.throw] at h
  · cases hlocate : d.locate working text with
    | error fault => simp [hlocate, bind, Except.bind] at h
    | ok place =>
        by_cases hfolder : d.hasFolder place = true
        · simp [hlocate, hfolder, bind, Except.bind, throw, throwThe,
            MonadExceptOf.throw] at h
        · simp [hlocate, hfolder, bind, Except.bind, pure, Except.pure] at h
          exact ⟨place, rfl, by simpa [hasFolder] using hfolder, h.symm⟩

/-- Where one file can be written, any other can. -/
theorem exists_write_eq_ok {data : Bytes} (h : d.write working text data = .ok e) (other : Bytes) :
    ∃ f, d.write working text other = .ok f := by
  rw [write] at h ⊢
  split at h
  · generalize (d.locate working (withoutSlashes text)).mapError _ = located at h
    cases located <;> simp [bind, Except.bind, throw, throwThe, MonadExceptOf.throw] at h
  next hending =>
    rw [if_neg hending]
    cases hlocate : d.locate working text with
    | error fault => simp [hlocate, bind, Except.bind] at h
    | ok place =>
        by_cases hfolder : d.hasFolder place = true
        · simp [hlocate, hfolder, bind, Except.bind, throw, throwThe,
            MonadExceptOf.throw] at h
        · simp [hfolder, bind, Except.bind, pure, Except.pure]

/-- What is put where no folder was is in the way of no text that leads there. -/
theorem locate_put {node : Node} (hlocate : d.locate working text = .ok place)
    (hplace : d.node? place ≠ some .folder) :
    (d.put place node).locate working text = .ok place := by
  have hne : place ≠ [] := by
    rintro rfl
    exact hplace rfl
  rw [locate_eq_ok_iff, walk_eq_ok_iff] at hlocate ⊢
  obtain ⟨hnul, hempty, hsize, hlast, hnames, hfolders⟩ := hlocate
  refine ⟨hnul, hempty, hsize, hlast, hnames, fun start hstart hshort => ?_⟩
  have hfolder := hfolders start hstart hshort
  have hother : Path.follow (if Path.isAbsolute text then [] else working) start ≠ place :=
    fun hsame => hplace (hsame ▸ hfolder)
  rw [node?_put hne, if_neg hother]
  exact hfolder

/-- What was written is read. -/
theorem read_of_write {data : Bytes} (h : d.write working text data = .ok e) :
    e.read working text = .ok data := by
  obtain ⟨place, hlocate, hplace, rfl⟩ := write_eq_ok h
  have hne : place ≠ [] := by
    rintro rfl
    exact hplace rfl
  refine read_of_locate (locate_put hlocate hplace) ?_
  rw [file?, node?_put hne, if_pos rfl]

theorem isFile_of_read {data : Bytes} (h : d.read working text = .ok data) :
    d.isFile working text = true := by
  obtain ⟨node, hlook⟩ := look_of_read h
  rw [isFile, hlook]
  cases node with
  | file data => rfl
  | folder => simp [read, hlook, bind, Except.bind, throw, throwThe, MonadExceptOf.throw] at h

/-! ### Disks that look alike -/

theorem walk_congr (h : ∀ start, start <+: names →
    d.node? (Path.follow place start) = e.node? (Path.follow place start)) :
    d.walk place names = e.walk place names := by
  induction names generalizing place with
  | nil => rfl
  | cons name names ih =>
      have hfirst : d.node? place = e.node? place := h [] List.nil_prefix
      have hrest : d.walk (Path.step place name) names = e.walk (Path.step place name) names :=
        ih fun start hstart => h (name :: start) (List.cons_prefix_cons.mpr ⟨rfl, hstart⟩)
      rw [walk, walk, hfirst, hrest]

/-- What is found by the text of a normalized path depends on its place and those above it alone. -/
theorem look_text_congr {p : AbsolutePath} (hp : p.Normal) (hne : p.place ≠ [])
    (h : ∀ above, above <+: p.place → d.node? above = e.node? above) (working : Path) :
    d.look working p.text = e.look working p.text := by
  have hwalk : d.walk [] (Text.split '/' p.text) = e.walk [] (Text.split '/' p.text) := by
    refine walk_congr fun start hstart => ?_
    by_cases hall : start = Text.split '/' p.text
    · rw [hall, AbsolutePath.follow_split_text hp hne]
      exact h p.place List.prefix_rfl
    · exact (AbsolutePath.forall_follow_iff hp hne
        (motive := fun above => d.node? above = e.node? above)).mpr (fun above hup _ => h above hup)
          start hstart hall
  have hlocate : d.locate working p.text = e.locate working p.text := by
    rw [locate, locate, if_pos (AbsolutePath.isAbsolute_text hp), hwalk]
  rw [look, look, hlocate]
  cases hfound : e.locate working p.text with
  | error fault => rfl
  | ok place =>
      rw [eq_place_of_locate_text hp hne hfound]
      simp only [bind, Except.bind, h p.place List.prefix_rfl]

theorem read_text_congr {p : AbsolutePath} (hp : p.Normal) (hne : p.place ≠ [])
    (h : ∀ above, above <+: p.place → d.node? above = e.node? above) (working : Path) :
    d.read working p.text = e.read working p.text := by
  rw [read, read, look_text_congr hp hne h]

end ArchiveExport.Disk
