import ArchiveExport.Disk.Path
import ArchiveExport.Proofs.Text.Pieces
import Mathlib.Data.List.Infix

/-!
# Normalized paths

Following a proper name leads one place down. A normalized path has nothing but proper names in it,
and its text can be read back name by name.
-/

namespace ArchiveExport

namespace Path

/-- A name that leads one place down. -/
structure IsName (name : String) : Prop where
  ne_empty : name ≠ ""
  ne_here : name ≠ "."
  ne_up : name ≠ ".."
  noSlash : '/' ∉ name.toList

instance (name : String) : Decidable (IsName name) :=
  decidable_of_iff (name ≠ "" ∧ name ≠ "." ∧ name ≠ ".." ∧ '/' ∉ name.toList)
    ⟨fun ⟨hempty, hhere, hup, hslash⟩ => ⟨hempty, hhere, hup, hslash⟩,
      fun h => ⟨h.ne_empty, h.ne_here, h.ne_up, h.noSlash⟩⟩

variable {place : Path} {names : List String}

theorem IsName.exists_last {name : String} (h : IsName name) :
    ∃ front c, name.toList = front ++ [c] ∧ c ≠ '/' := by
  obtain ⟨front, c, hc⟩ := (List.eq_nil_or_concat' name.toList).resolve_left
    (by simpa using h.ne_empty)
  refine ⟨front, c, hc, ?_⟩
  rintro rfl
  exact h.noSlash (by simp [hc])

theorem step_of_isName {name : String} (h : IsName name) (place : Path) :
    step place name = place ++ [name] := by
  rw [step, if_neg (not_or.mpr ⟨h.ne_empty, h.ne_here⟩), if_neg h.ne_up]

/-- Proper names are added to a place. -/
theorem follow_of_isName (h : ∀ name ∈ names, IsName name) (place : Path) :
    follow place names = place ++ names := by
  induction names generalizing place with
  | nil => exact (List.append_nil place).symm
  | cons name names ih =>
      have hstep := step_of_isName (h name List.mem_cons_self) place
      have hrest := ih (fun other hother => h other (List.mem_cons_of_mem _ hother))
        (place ++ [name])
      rw [follow, List.foldl_cons, hstep]
      rw [follow] at hrest
      rw [hrest, List.append_assoc, List.singleton_append]

theorem follow_append (place : Path) (names others : List String) :
    follow place (names ++ others) = follow (follow place names) others :=
  List.foldl_append

/-- Slashes in front of a text lead nowhere. -/
theorem follow_split_dropLeading (place : Path) (text : String) :
    follow place (Text.split '/' (Text.dropLeading '/' text)) =
      follow place (Text.split '/' text) := by
  rw [Text.split, Text.split, Text.dropLeading, String.toList_ofList]
  induction text.toList with
  | nil => rfl
  | cons c rest ih =>
      by_cases hc : c = '/'
      · simpa [hc, Text.splitOn, follow, step] using ih
      · simp [hc]

/-- Without two dots, following names leads down or nowhere. -/
theorem prefix_follow (h : ∀ name ∈ names, name ≠ "..") (place : Path) :
    place <+: follow place names := by
  induction names generalizing place with
  | nil => exact List.prefix_rfl
  | cons name names ih =>
      have hstep : place <+: step place name := by
        rw [step]
        split
        · exact List.prefix_rfl
        · rw [if_neg (h name List.mem_cons_self)]
          exact List.prefix_append _ _
      exact hstep.trans (ih (fun other hother => h other (List.mem_cons_of_mem _ hother)) _)

/-- Without two dots, the places on the way are above the last one. -/
theorem follow_prefix_follow {start : List String} (h : ∀ name ∈ names, name ≠ "..")
    (hstart : start <+: names) (place : Path) : follow place start <+: follow place names := by
  obtain ⟨rest, rfl⟩ := hstart
  rw [follow_append]
  exact prefix_follow (fun name hname => h name (List.mem_append_right _ hname)) _

theorem isName_step {name : String} (hplace : ∀ name ∈ place, IsName name)
    (hname : '/' ∉ name.toList) : ∀ other ∈ step place name, IsName other := by
  intro other hother
  rw [step] at hother
  split at hother
  · exact hplace other hother
  next hstays =>
    split at hother
    · exact hplace other (List.mem_of_mem_dropLast hother)
    next hup =>
      rcases List.mem_append.mp hother with hold | hnew
      · exact hplace other hold
      · obtain rfl := List.mem_singleton.mp hnew
        exact ⟨fun h => hstays (Or.inl h), fun h => hstays (Or.inr h), hup, hname⟩

/-- Wherever names without slashes lead, only proper names are on the way. -/
theorem isName_follow (hplace : ∀ name ∈ place, IsName name)
    (hnames : ∀ name ∈ names, '/' ∉ name.toList) : ∀ name ∈ follow place names, IsName name := by
  induction names generalizing place with
  | nil => exact hplace
  | cons name names ih =>
      have hstep := isName_step hplace (hnames name List.mem_cons_self)
      exact ih hstep fun other hother => hnames other (List.mem_cons_of_mem _ hother)

theorem ne_empty_of_isAbsolute {text : String} (h : isAbsolute text = true) : text ≠ "" := by
  rintro rfl
  simp [isAbsolute, Text.startsWith] at h

/-- A relative text of proper names, slashes alone between them. -/
structure Plain (text : String) : Prop where
  noBackslash : '\\' ∉ text.toList
  isName : ∀ name ∈ Text.split '/' text, IsName name

instance (text : String) : Decidable (Plain text) :=
  decidable_of_iff ('\\' ∉ text.toList ∧ ∀ name ∈ Text.split '/' text, IsName name)
    ⟨fun ⟨hbackslash, hnames⟩ => ⟨hbackslash, hnames⟩, fun h => ⟨h.noBackslash, h.isName⟩⟩

/-- A relative text whose pieces lead down to a name, whatever else stands between its slashes. -/
structure Descends (text : String) : Prop where
  noBackslash : '\\' ∉ text.toList
  noUp : ∀ piece ∈ Text.split '/' text, piece ≠ ".."
  isName : IsName ((Text.split '/' text).getLastD "")

instance (text : String) : Decidable (Descends text) :=
  decidable_of_iff ('\\' ∉ text.toList ∧ (∀ piece ∈ Text.split '/' text, piece ≠ "..") ∧
      IsName ((Text.split '/' text).getLastD ""))
    ⟨fun ⟨hbackslash, hup, hname⟩ => ⟨hbackslash, hup, hname⟩,
      fun h => ⟨h.noBackslash, h.noUp, h.isName⟩⟩

theorem Descends.exists_last {text : String} (h : Descends text) :
    ∃ front last, Text.split '/' text = front ++ [last] ∧ IsName last := by
  obtain ⟨front, last, hsplit⟩ :=
    (List.eq_nil_or_concat' (Text.split '/' text)).resolve_left (Text.split_ne_nil _ _)
  have hname := h.isName
  rw [hsplit, List.getLastD_concat] at hname
  exact ⟨front, last, hsplit, hname⟩

/-- The start of plain paths: what stands in front of its last piece is made of proper names. -/
structure Stem (text : String) : Prop where
  noBackslash : '\\' ∉ text.toList
  isName : ∀ front last, Text.split '/' text = front ++ [last] → ∀ name ∈ front, IsName name

variable {text ending : String}

theorem Plain.stem (h : Plain text) : Stem text where
  noBackslash := h.noBackslash
  isName := by
    intro front last hsplit name hname
    exact h.isName name (by simp [hsplit, hname])

theorem Stem.of_append (hending : '/' ∉ ending.toList) (h : Stem (text ++ ending)) : Stem text where
  noBackslash := fun hmem => h.noBackslash (by simp [hmem])
  isName := by
    intro front last hsplit
    obtain ⟨front', last', htext, hlonger⟩ := Text.split_append hending text
    obtain ⟨rfl, -⟩ := List.append_inj' (hsplit.symm.trans htext) rfl
    exact h.isName front (last' ++ ending) hlonger

/-- A longer last piece is no dots. -/
theorem Stem.append (h : Stem text) (hending : '/' ∉ ending.toList)
    (hbackslash : '\\' ∉ ending.toList) (hlength : 2 < ending.length) : Plain (text ++ ending) where
  noBackslash := by simp [h.noBackslash, hbackslash]
  isName := by
    obtain ⟨front, last, htext, hlonger⟩ := Text.split_append hending text
    have hlast : '/' ∉ last.toList := Text.not_mem_of_mem_split
      (show last ∈ Text.split '/' text by simp [htext])
    have hdots : ∀ short : String, short.length ≤ 2 → last ++ ending ≠ short := by
      rintro short hshort rfl
      rw [String.length_append] at hshort
      omega
    intro name hname
    rw [hlonger] at hname
    rcases List.mem_append.mp hname with hfront | hname
    · exact h.isName front last htext name hfront
    · obtain rfl := List.mem_singleton.mp hname
      exact ⟨hdots _ (by decide), hdots _ (by decide), hdots _ (by decide),
        by simp [hlast, hending]⟩

/-- A plain path ends in a name. -/
theorem Plain.exists_last (h : Plain text) : ∃ front c, text.toList = front ++ [c] ∧ c ≠ '/' := by
  obtain ⟨front, last, hsplit⟩ :=
    (List.eq_nil_or_concat' (Text.split '/' text)).resolve_left (Text.split_ne_nil _ _)
  obtain ⟨before, rfl⟩ := Text.exists_append_of_split hsplit
  obtain ⟨start, c, hc, hslash⟩ := (h.isName last (by simp [hsplit])).exists_last
  exact ⟨before.toList ++ start, c, by simp [hc], hslash⟩

end Path

namespace AbsolutePath

/-- A path of proper names behind one slash or two. -/
structure Normal (p : AbsolutePath) : Prop where
  lead : p.lead = "/" ∨ p.lead = "//"
  isName : ∀ name ∈ p.place, Path.IsName name

instance (p : AbsolutePath) : Decidable p.Normal :=
  decidable_of_iff ((p.lead = "/" ∨ p.lead = "//") ∧ ∀ name ∈ p.place, Path.IsName name)
    ⟨fun ⟨hlead, hnames⟩ => ⟨hlead, hnames⟩, fun h => ⟨h.lead, h.isName⟩⟩

variable {p working : AbsolutePath}

/-- What a text means in a normalized working folder is normalized. -/
theorem normal_ofText (hworking : working.Normal) (text : String) :
    (ofText working text).Normal := by
  have hnames : ∀ name ∈ Text.split '/' text, '/' ∉ name.toList :=
    fun name hname => Text.not_mem_of_mem_split hname
  rw [ofText]
  split
  · constructor
    · simp only [leadOf]
      split
      · exact Or.inr rfl
      · exact Or.inl rfl
    · exact Path.isName_follow (by simp) hnames
  · constructor
    · exact hworking.lead
    · exact Path.isName_follow hworking.isName hnames

/-- The pieces of the text in front of its first name. -/
def blanks (p : AbsolutePath) : List String := if p.lead = "/" then [""] else ["", ""]

theorem blanks_eq (p : AbsolutePath) : p.blanks = [""] ∨ p.blanks = ["", ""] := by
  rw [blanks]
  split
  · exact Or.inl rfl
  · exact Or.inr rfl

theorem eq_empty_of_mem_blanks {piece : String} (h : piece ∈ p.blanks) : piece = "" := by
  rcases p.blanks_eq with hblanks | hblanks <;> simpa [hblanks] using h

theorem text_eq_join (hp : p.Normal) (hne : p.place ≠ []) :
    p.text = Text.join "/" (p.blanks ++ p.place) := by
  have hjoin : ∀ names : List String, names ≠ [] →
      Text.join "/" ("" :: names) = "/" ++ Text.join "/" names := by
    intro names hnames
    have hpieces : names.map String.toList ≠ [] := by simpa using hnames
    rw [← String.toList_inj]
    simp [Text.join, List.intercalate_cons_of_ne_nil hpieces]
  rcases hp.lead with hlead | hlead
  · simp [text, blanks, hlead, hjoin p.place hne]
  · have htwo : "//" ++ Text.join "/" p.place = "/" ++ ("/" ++ Text.join "/" p.place) := by
      rw [← String.append_assoc]
      rfl
    simp [text, blanks, hlead, hjoin p.place hne, hjoin ("" :: p.place) (by simp), htwo]

/-- The text of a normalized path can be split into its names. -/
theorem split_text (hp : p.Normal) (hne : p.place ≠ []) :
    Text.split '/' p.text = p.blanks ++ p.place := by
  rw [text_eq_join hp hne]
  refine Text.split_join rfl (by simp [hne]) fun piece hpiece => ?_
  rcases List.mem_append.mp hpiece with hblank | hname
  · simp [eq_empty_of_mem_blanks hblank]
  · exact (hp.isName piece hname).noSlash

theorem isAbsolute_text (hp : p.Normal) : Path.isAbsolute p.text = true := by
  rcases hp.lead with hlead | hlead <;>
    simp [Path.isAbsolute, Text.startsWith, text, hlead, List.isPrefixOf]

theorem text_ne_empty (hp : p.Normal) : p.text ≠ "" :=
  Path.ne_empty_of_isAbsolute (isAbsolute_text hp)

/-- The names of a path lead to its place. -/
theorem follow_blanks_append (hp : p.Normal) {start : Path} (hstart : start <+: p.place) :
    Path.follow [] (p.blanks ++ start) = start := by
  have hnames := Path.follow_of_isName (fun name hname => hp.isName name (hstart.subset hname)) []
  rw [List.nil_append] at hnames
  rw [Path.follow_append]
  rcases p.blanks_eq with hblanks | hblanks
  · rw [hblanks]
    exact hnames
  · rw [hblanks]
    exact hnames

theorem follow_split_text (hp : p.Normal) (hne : p.place ≠ []) :
    Path.follow [] (Text.split '/' p.text) = p.place := by
  rw [split_text hp hne]
  exact follow_blanks_append hp List.prefix_rfl

/-- The places on the way of a path's text are those above its place. -/
theorem forall_follow_iff (hp : p.Normal) (hne : p.place ≠ []) {motive : Path → Prop} :
    (∀ start, start <+: Text.split '/' p.text → start ≠ Text.split '/' p.text →
        motive (Path.follow [] start)) ↔
      ∀ above, above <+: p.place → above ≠ p.place → motive above := by
  rw [split_text hp hne]
  constructor
  · intro h above hup hbelow
    have hmotive := h (p.blanks ++ above) ((List.prefix_append_right_inj _).mpr hup)
      (by simpa using hbelow)
    rwa [follow_blanks_append hp hup] at hmotive
  · intro h start hstart hshort
    rcases List.prefix_or_prefix_of_prefix hstart (List.prefix_append p.blanks p.place) with
      hblank | ⟨above, rfl⟩
    · have htop : Path.follow [] start <+: Path.follow [] p.blanks :=
        Path.follow_prefix_follow (fun piece hpiece => by simp [eq_empty_of_mem_blanks hpiece])
          hblank []
      have hblanks := follow_blanks_append hp (show [] <+: p.place from List.nil_prefix)
      rw [List.append_nil] at hblanks
      rw [hblanks, List.prefix_nil] at htop
      rw [htop]
      exact h [] List.nil_prefix hne.symm
    · have hup := (List.prefix_append_right_inj _).mp hstart
      rw [follow_blanks_append hp hup]
      exact h above hup (by simpa using hshort)

/-! ### Joining -/

/-- The pieces of an absolute text lead to a place, and all names among them are on the way. -/
structure Leads (text : String) (place : Path) : Prop where
  absolute : Path.isAbsolute text = true
  follow : Path.follow [] (Text.split '/' text) = place
  piece : ∀ piece ∈ Text.split '/' text, piece = "" ∨ piece = "." ∨ piece ∈ place

theorem leads_text (hp : p.Normal) (hne : p.place ≠ []) : Leads p.text p.place where
  absolute := isAbsolute_text hp
  follow := follow_split_text hp hne
  piece := by
    intro piece hpiece
    rw [split_text hp hne] at hpiece
    rcases List.mem_append.mp hpiece with hblank | hname
    · exact Or.inl (eq_empty_of_mem_blanks hblank)
    · exact Or.inr (Or.inr hname)

theorem isAbsolute_append {text : String} (h : Path.isAbsolute text = true) (more : String) :
    Path.isAbsolute (text ++ more) = true := by
  rw [Path.isAbsolute, Text.startsWith, List.isPrefixOf_iff_prefix] at h ⊢
  rw [String.toList_append]
  exact h.trans (List.prefix_append _ _)

/-- A piece is put behind a text with a slash between them, unless there is one. -/
theorem exists_split_join {text piece : String} (habsolute : Path.isAbsolute text = true)
    (hpiece : '/' ∉ piece.toList) :
    Path.isAbsolute (Path.join text piece) = true ∧
      ∃ front, Text.split '/' (Path.join text piece) = front ++ [piece] ∧
        (Text.split '/' text = front ∨ Text.split '/' text = front ++ [""]) := by
  have hrelative : ¬ Path.isAbsolute piece = true := by
    rw [Path.isAbsolute, Text.startsWith, List.isPrefixOf_iff_prefix]
    exact fun hstarts => hpiece (hstarts.subset (by simp))
  have hne := Path.ne_empty_of_isAbsolute habsolute
  rw [Path.join, if_neg hrelative]
  by_cases hends : Text.endsWith "/" text = true
  · rw [if_pos (Or.inr hends)]
    obtain ⟨before, hbefore⟩ := List.isSuffixOf_iff_suffix.mp hends
    have htext : text = String.ofList before ++ "/" := by
      rw [← String.toList_inj, ← hbefore]
      simp
    refine ⟨isAbsolute_append habsolute piece, Text.split '/' (String.ofList before), ?_, Or.inr ?_⟩
    · rw [htext]
      exact Text.split_append_piece rfl _ hpiece
    · have hsplit : Text.split '/' (String.ofList before ++ "/" ++ "") =
          Text.split '/' (String.ofList before) ++ [""] :=
        Text.split_append_piece rfl _ (by simp)
      rwa [String.append_empty, ← htext] at hsplit
  · rw [if_neg (not_or.mpr ⟨hne, hends⟩)]
    exact ⟨isAbsolute_append (isAbsolute_append habsolute "/") piece, Text.split '/' text,
      Text.split_append_piece rfl text hpiece, Or.inl rfl⟩

theorem Leads.follow_front {text : String} {place : Path} {front : List String}
    (h : Leads text place)
    (hfront : Text.split '/' text = front ∨ Text.split '/' text = front ++ [""]) :
    Path.follow [] front = place := by
  rw [← h.follow]
  rcases hfront with hsame | hblank
  · rw [hsame]
  · rw [hblank, Path.follow_append]
    rfl

/-- The pieces in front of one that is joined to a text are pieces of the text. -/
theorem mem_split_of_front {text piece : String} {front : List String}
    (hfront : Text.split '/' text = front ∨ Text.split '/' text = front ++ [""])
    (hpiece : piece ∈ front) : piece ∈ Text.split '/' text := by
  rcases hfront with hsame | hblank
  · rwa [hsame]
  · rw [hblank]
    exact List.mem_append_left _ hpiece

theorem Leads.join {text piece : String} {place : Path} (h : Leads text place)
    (hpiece : '/' ∉ piece.toList) (hup : piece ≠ "..") :
    Leads (Path.join text piece) (Path.step place piece) := by
  obtain ⟨habsolute, front, hsplit, hfront⟩ := exists_split_join h.absolute hpiece
  have hdown : place <+: Path.follow place [piece] :=
    Path.prefix_follow (by simpa using hup) place
  refine ⟨habsolute, ?_, ?_⟩
  · rw [hsplit, Path.follow_append, h.follow_front hfront]
    rfl
  · intro other hother
    rw [hsplit] at hother
    rcases List.mem_append.mp hother with hold | hnew
    · exact (h.piece other (mem_split_of_front hfront hold)).imp_right
        (Or.imp_right fun hmem => hdown.subset hmem)
    · obtain rfl := List.mem_singleton.mp hnew
      rw [Path.step]
      by_cases hstays : other = "" ∨ other = "."
      · exact hstays.imp_right Or.inl
      · rw [if_neg hstays, if_neg hup]
        simp

/-- On the way of a text with one more piece, all places in front of the end are at or above the
place where the text leads. -/
theorem Leads.follow_prefix {text piece : String} {place : Path} (h : Leads text place)
    (hplace : ".." ∉ place) (hpiece : '/' ∉ piece.toList) {start : List String}
    (hstart : start <+: Text.split '/' (Path.join text piece))
    (hshort : start ≠ Text.split '/' (Path.join text piece)) :
    Path.follow [] start <+: place := by
  obtain ⟨-, front, hsplit, hfront⟩ := exists_split_join h.absolute hpiece
  have hup : ∀ other ∈ front, other ≠ ".." := by
    intro other hother
    rcases h.piece other (mem_split_of_front hfront hother) with rfl | rfl | hmem
    · decide
    · decide
    · exact fun hsame => hplace (hsame ▸ hmem)
  rw [hsplit] at hstart hshort
  rw [← h.follow_front hfront]
  exact Path.follow_prefix_follow hup ((List.prefix_concat_iff.mp hstart).resolve_left hshort) []

/-- Joining pieces in turn leads where they lead. -/
theorem Leads.foldl_join {text : String} {place : Path} (h : Leads text place)
    {pieces : List String} (hpieces : ∀ piece ∈ pieces, '/' ∉ piece.toList ∧ piece ≠ "..") :
    Leads (pieces.foldl Path.join text) (Path.follow place pieces) := by
  induction pieces generalizing text place with
  | nil => exact h
  | cons piece pieces ih =>
      obtain ⟨hpiece, hup⟩ := hpieces piece List.mem_cons_self
      exact ih (h.join hpiece hup) fun other hother => hpieces other (List.mem_cons_of_mem _ hother)

end AbsolutePath

end ArchiveExport
