import ArchiveExport.Proofs.Disk.Access

/-!
# What is on the way

Making folders follows a text name by name. The first name that cannot be followed decides how the
access fails, and the folders in front of it are made all the same. Only the files on the way and
the names themselves count, so the same access fails or succeeds alike wherever these are the same.
-/

namespace ArchiveExport

/-- A place on the way is not behind its end. -/
theorem Path.ne_concat_of_prefix {above front : Path} (h : above <+: front) (name : String) :
    above ≠ front ++ [name] := by
  rintro rfl
  have hlength := h.length_le
  rw [List.length_append, List.length_singleton] at hlength
  omega

/-- No character of a name is a slash, read backward as well. -/
theorem Path.IsName.ne_slash {name : String} (h : Path.IsName name) :
    ∀ c ∈ name.toList.reverse, decide (c ≠ '/') = true := by
  intro c hc
  have hne : c ≠ '/' := by
    rintro rfl
    exact h.noSlash (List.mem_reverse.mp hc)
  exact decide_eq_true hne

namespace AbsolutePath

variable {lead name : String} {front : Path}

/-! ### The last name of a text -/

theorem Normal.dropLast (h : (AbsolutePath.mk lead (front ++ [name])).Normal) :
    (AbsolutePath.mk lead front).Normal where
  lead := h.lead
  isName := fun other hother => h.isName other (List.mem_append_left _ hother)

theorem Normal.last (h : (AbsolutePath.mk lead (front ++ [name])).Normal) : Path.IsName name :=
  h.isName name (by simp)

theorem text_nil (lead : String) : (AbsolutePath.mk lead []).text = lead := by
  rw [text, Text.join]
  exact String.append_empty

theorem text_concat (hne : front ≠ []) (lead name : String) :
    (AbsolutePath.mk lead (front ++ [name])).text =
      (AbsolutePath.mk lead front).text ++ "/" ++ name := by
  rw [text, text, Text.join, String.intercalate_append_of_ne_nil hne (List.cons_ne_nil name []),
    String.intercalate_singleton, ← Text.join, String.append_assoc, String.append_assoc,
    String.append_assoc]

/-- The text of a path is something, a slash and the last name; in front of the slash stands the
text of the folder, or nothing but slashes. -/
theorem exists_toList_text (h : (AbsolutePath.mk lead (front ++ [name])).Normal) :
    ∃ before, (AbsolutePath.mk lead (front ++ [name])).text.toList = before ++ '/' :: name.toList ∧
      (front = [] → before ++ ['/'] = lead.toList) ∧
      (front ≠ [] → before = (AbsolutePath.mk lead front).text.toList) := by
  by_cases hne : front = []
  · subst hne
    have htext : (AbsolutePath.mk lead ([] ++ [name])).text = lead ++ name := by
      rw [text, Text.join, List.nil_append, String.intercalate_singleton]
    rw [htext]
    rcases h.lead with rfl | rfl
    · exact ⟨[], by simp, by simp, by simp⟩
    · exact ⟨['/'], by simp, by simp, by simp⟩
  · refine ⟨(AbsolutePath.mk lead front).text.toList, ?_, fun hempty => absurd hempty hne,
      fun _ => rfl⟩
    rw [text_concat hne]
    simp

/-- Behind its last slash a text has the last name. -/
theorem base_text (h : (AbsolutePath.mk lead (front ++ [name])).Normal) :
    Path.base (AbsolutePath.mk lead (front ++ [name])).text = name := by
  obtain ⟨before, htext, -⟩ := exists_toList_text h
  rw [Path.base, htext, List.reverse_append, List.reverse_cons, List.append_assoc,
    List.takeWhile_append_of_pos h.last.ne_slash]
  simp

/-- In front of the last slash a text has the text of the folder. -/
theorem folder_text (h : (AbsolutePath.mk lead (front ++ [name])).Normal) :
    Path.folder (AbsolutePath.mk lead (front ++ [name])).text =
      (AbsolutePath.mk lead front).text := by
  obtain ⟨before, htext, htop, hbelow⟩ := exists_toList_text h
  have hhead : ((AbsolutePath.mk lead (front ++ [name])).text.toList.reverse.dropWhile
      (· ≠ '/')).reverse = before ++ ['/'] := by
    rw [htext, List.reverse_append, List.reverse_cons, List.append_assoc,
      List.dropWhile_append_of_pos h.last.ne_slash]
    simp
  simp only [Path.folder, hhead]
  rcases List.eq_nil_or_concat' front with rfl | ⟨start, last, rfl⟩
  · have hslashes : (before ++ ['/']).all (· = '/') = true := by
      rw [htop rfl]
      rcases h.lead with rfl | rfl <;> decide
    rw [if_pos hslashes, htop rfl, String.ofList_toList, text_nil]
  · obtain ⟨chars, c, hc, hslash⟩ := h.dropLast.last.exists_last
    obtain ⟨before', htext', -⟩ := exists_toList_text h.dropLast
    have hbefore : before = before' ++ '/' :: chars ++ [c] := by
      rw [hbelow (by simp), htext', hc]
      simp
    have hmixed : ¬ (before ++ ['/']).all (· = '/') = true := by
      rw [List.all_eq_true]
      intro hall
      have hlast := hall c (by simp [hbefore])
      exact hslash (by simpa using hlast)
    rw [if_neg hmixed, ← String.toList_inj, ← hbelow (by simp), String.toList_ofList,
      Text.dropTrailing, hbefore]
    simp [hslash]

/-- A text that ends in a name does not end in a slash. -/
theorem withoutSlashes_text (h : (AbsolutePath.mk lead (front ++ [name])).Normal) :
    Disk.withoutSlashes (AbsolutePath.mk lead (front ++ [name])).text =
        (AbsolutePath.mk lead (front ++ [name])).text ∧
      Text.endsWith "/" (AbsolutePath.mk lead (front ++ [name])).text = false := by
  obtain ⟨before, htext, -⟩ := exists_toList_text h
  obtain ⟨chars, c, hc, hslash⟩ := h.last.exists_last
  have hlast : (AbsolutePath.mk lead (front ++ [name])).text.toList =
      before ++ '/' :: chars ++ [c] := by
    rw [htext, hc]
    simp
  constructor
  · rw [Disk.withoutSlashes, Text.dropTrailing, hlast]
    rw [← String.toList_inj, hlast]
    simp [hslash]
  · rw [Text.endsWith, Bool.eq_false_iff, ne_eq, List.isSuffixOf_iff_suffix, hlast]
    rintro ⟨rest, hrest⟩
    have hends := (List.append_inj' hrest rfl).2
    exact hslash (by simpa using hends.symm)

end AbsolutePath

namespace AbsolutePath

variable {lead : String} {names : Path}

theorem nul_not_mem_text_iff (h : (AbsolutePath.mk lead names).Normal) :
    Char.ofNat 0 ∉ (AbsolutePath.mk lead names).text.toList ↔
      ∀ name ∈ names, Char.ofNat 0 ∉ name.toList := by
  by_cases hne : names = []
  · subst hne
    rw [text_nil]
    rcases h.lead with rfl | rfl <;> simp
  · rw [Text.mem_toList_iff (show Char.ofNat 0 ≠ '/' by decide), split_text h hne]
    constructor
    · exact fun hnone name hname hmem => hnone ⟨name, List.mem_append_right _ hname, hmem⟩
    · rintro hnone ⟨piece, hpiece, hmem⟩
      rcases List.mem_append.mp hpiece with hblank | hname
      · simp [eq_empty_of_mem_blanks hblank] at hmem
      · exact hnone piece hname hmem

theorem size_text_le_concat (lead : String) (names : Path) (name : String) :
    (AbsolutePath.mk lead names).text.utf8ByteSize ≤
      (AbsolutePath.mk lead (names ++ [name])).text.utf8ByteSize := by
  by_cases hne : names = []
  · subst hne
    have htext : (AbsolutePath.mk lead ([] ++ [name])).text = lead ++ name := by
      rw [text, Text.join, List.nil_append, String.intercalate_singleton]
    rw [text_nil, htext, String.utf8ByteSize_append]
    omega
  · rw [text_concat hne, String.utf8ByteSize_append, String.utf8ByteSize_append]
    omega

/-- A longer path has a longer text. -/
theorem size_text_le {above : Path} (h : above <+: names) :
    (AbsolutePath.mk lead above).text.utf8ByteSize ≤
      (AbsolutePath.mk lead names).text.utf8ByteSize := by
  obtain ⟨rest, rfl⟩ := h
  induction rest using List.reverseRecOn with
  | nil => rw [List.append_nil]
  | append_singleton rest name ih =>
      rw [← List.append_assoc]
      exact ih.trans (size_text_le_concat _ _ _)

/-- How long the text of a path is that has the same name over and over. -/
theorem size_text_replicate (lead name : String) (n : Nat) :
    (AbsolutePath.mk lead (List.replicate (n + 1) name)).text.utf8ByteSize =
      lead.utf8ByteSize + name.utf8ByteSize + n * (name.utf8ByteSize + 1) := by
  induction n with
  | zero =>
      have htext : (AbsolutePath.mk lead (List.replicate 1 name)).text = lead ++ name := by
        rw [text, Text.join, List.replicate_one, String.intercalate_singleton]
      rw [htext, String.utf8ByteSize_append, Nat.zero_mul, Nat.add_zero]
  | succ n ih =>
      have hslash : "/".utf8ByteSize = 1 := rfl
      rw [List.replicate_succ', text_concat (by simp), String.utf8ByteSize_append,
        String.utf8ByteSize_append, ih, hslash, Nat.succ_mul]
      omega

end AbsolutePath

namespace Disk

variable {d e : Disk} {lead name text : String} {front names place working : Path}

/-! ### Single names -/

theorem node?_eq_file_iff {data : Bytes} :
    d.file? place = some data ↔ d.node? place = some (.file data) := by
  rw [file?]
  split
  next found hfound => simp [hfound]
  next hother =>
    simp only [reduceCtorEq, false_iff]
    exact fun hnode => hother data hnode

/-- What is there and is no file is a folder. -/
theorem node?_eq_folder (hthere : d.node? place ≠ none) (hfile : d.file? place = none) :
    d.node? place = some .folder := by
  cases hnode : d.node? place with
  | none => exact absurd hnode hthere
  | some node =>
      cases node with
      | file data => simp [node?_eq_file_iff.mpr hnode] at hfile
      | folder => rfl

/-- Why the last name of a text cannot be followed from the place in front of it, where something
is there. -/
def hindrance? (d : Disk) (lead : String) (front : Path) (name : String) : Option Fault :=
  let text := (AbsolutePath.mk lead (front ++ [name])).text
  if text.toList.contains (Char.ofNat 0) then some .nulInText
  else if maxText < text.utf8ByteSize then some (.refused .nameTooLong text)
  else if (d.file? front).isSome then some (.refused .notFolder text)
  else if maxName < name.utf8ByteSize then some (.refused .nameTooLong text)
  else none

theorem hindrance?_congr (h : (d.file? front).isSome = (e.file? front).isSome)
    (lead name : String) :
    d.hindrance? lead front name = e.hindrance? lead front name := by
  rw [hindrance?, hindrance?, h]

theorem hindrance?_ne_exists : d.hindrance? lead front name ≠ some (.refused .exists text) := by
  rw [hindrance?]
  split_ifs <;> simp

/-- A hindrance tells the text up to the name. -/
theorem text_of_hindrance? {refusal : Refusal}
    (h : d.hindrance? lead front name = some (.refused refusal text)) :
    text = (AbsolutePath.mk lead (front ++ [name])).text := by
  rw [hindrance?] at h
  split_ifs at h
  all_goals simp at h
  all_goals exact h.2.symm

theorem hindrance?_eq_none_iff :
    d.hindrance? lead front name = none ↔
      Char.ofNat 0 ∉ (AbsolutePath.mk lead (front ++ [name])).text.toList ∧
        (AbsolutePath.mk lead (front ++ [name])).text.utf8ByteSize ≤ maxText ∧
        d.file? front = none ∧ name.utf8ByteSize ≤ maxName := by
  rw [hindrance?]
  split_ifs with hnul hlong hfile hname
  · simp [List.contains_iff_mem.mp hnul]
  · simp [Nat.not_le.mpr hlong]
  · simp [Option.isSome_iff_ne_none.mp hfile]
  · simp [Nat.not_le.mpr hname]
  · simp_all

theorem walk_append (d : Disk) (place : Path) (names others : List String) :
    d.walk place (names ++ others) =
      (d.walk place names).bind fun reached => d.walk reached others := by
  induction names generalizing place with
  | nil => rfl
  | cons name names ih =>
      rw [List.cons_append, walk, walk]
      split
      · rfl
      · rfl
      · split
        · rfl
        · exact ih _

theorem walk_blanks (d : Disk) (p : AbsolutePath) : d.walk [] p.blanks = .ok [] := by
  have htop : d.node? [] = some .folder := if_pos rfl
  rcases p.blanks_eq with hblanks | hblanks
  · simp [hblanks, walk, htop, Path.step]
  · simp [hblanks, walk, htop, Path.step]

/-- Where the folders in front of its last name are there, a text leads to its place unless the last
name cannot be followed. -/
theorem locate_concat (h : (AbsolutePath.mk lead (front ++ [name])).Normal)
    (hfolders : ∀ above, above <+: front → above ≠ front → d.node? above = some .folder)
    (hfront : d.node? front ≠ none) (hsizes : ∀ other ∈ front, other.utf8ByteSize ≤ maxName)
    (working : Path) :
    d.locate working (AbsolutePath.mk lead (front ++ [name])).text =
      match d.hindrance? lead front name with
      | some fault => .error fault
      | none => .ok (front ++ [name]) := by
  have hreached : d.walk [] front = .ok front := by
    have hfollow : ∀ above, above <+: front → Path.follow [] above = above := by
      intro above habove
      rw [Path.follow_of_isName fun other hother => h.dropLast.isName other (habove.subset hother)]
      rfl
    refine walk_eq_ok_iff.mpr ⟨(hfollow front List.prefix_rfl).symm, hsizes, ?_⟩
    intro start hstart hshort
    rw [hfollow start hstart]
    exact hfolders start hstart hshort
  have hwalk : d.walk [] (Text.split '/' (AbsolutePath.mk lead (front ++ [name])).text) =
      d.walk front [name] := by
    rw [AbsolutePath.split_text h (by simp), walk_append, walk_blanks]
    change d.walk [] (front ++ [name]) = _
    rw [walk_append, hreached]
    rfl
  rw [locate, hindrance?, if_neg (AbsolutePath.text_ne_empty h),
    if_pos (AbsolutePath.isAbsolute_text h), hwalk]
  split_ifs with hnul hlong hfile hname
  · rfl
  · rfl
  · obtain ⟨data, hdata⟩ := Option.isSome_iff_exists.mp hfile
    simp [walk, node?_eq_file_iff.mp hdata, Except.mapError]
  · have hnode := node?_eq_folder hfront (by simpa using hfile)
    simp [walk, hnode, hname, Except.mapError]
  · have hnode := node?_eq_folder hfront (by simpa using hfile)
    simp [walk, hnode, hname, Except.mapError, Path.step_of_isName h.last]

/-! ### The way to a place -/

/-- The first hindrance on the way along names from a place. -/
def wayFrom? (d : Disk) (lead : String) : Path → List String → Option Fault
  | _, [] => none
  | front, name :: names =>
    (d.hindrance? lead front name).or (wayFrom? d lead (front ++ [name]) names)

/-- The first hindrance on the way to a place. -/
def wayFault? (d : Disk) (lead : String) (names : Path) : Option Fault :=
  d.wayFrom? lead [] names

theorem wayFault?_concat (d : Disk) (lead : String) (front : Path) (name : String) :
    d.wayFault? lead (front ++ [name]) =
      (d.wayFault? lead front).or (d.hindrance? lead front name) := by
  have hfrom : ∀ (names : List String) (start : Path),
      d.wayFrom? lead start (names ++ [name]) =
        (d.wayFrom? lead start names).or (d.hindrance? lead (start ++ names) name) := by
    intro names
    induction names with
    | nil => simp [wayFrom?]
    | cons first names ih =>
        intro start
        simp [wayFrom?, ih, Option.or_assoc]
  rw [wayFault?, hfrom, List.nil_append]
  rfl

/-- The way is free where every name on it can be followed. -/
theorem wayFault?_eq_none_iff :
    d.wayFault? lead names = none ↔
      ∀ front name, front ++ [name] <+: names → d.hindrance? lead front name = none := by
  induction names using List.reverseRecOn with
  | nil => simp [wayFault?, wayFrom?]
  | append_singleton names last ih =>
      rw [wayFault?_concat, Option.or_eq_none_iff, ih]
      constructor
      · rintro ⟨hway, hlast⟩ front name hpre
        rcases List.prefix_concat_iff.mp hpre with hall | hshort
        · obtain ⟨rfl, hname⟩ := List.append_inj' hall rfl
          obtain rfl := List.singleton_inj.mp hname
          exact hlast
        · exact hway front name hshort
      · intro hall
        exact ⟨fun front name hpre => hall front name (hpre.trans (List.prefix_append _ _)),
          hall names last List.prefix_rfl⟩

theorem wayFault?_of_prefix {above : Path} (habove : above <+: names)
    (h : d.wayFault? lead names = none) : d.wayFault? lead above = none := by
  rw [wayFault?_eq_none_iff] at h ⊢
  exact fun front name hpre => h front name (hpre.trans habove)

theorem wayFault?_ne_exists : d.wayFault? lead names ≠ some (.refused .exists text) := by
  induction names using List.reverseRecOn with
  | nil => simp [wayFault?, wayFrom?]
  | append_singleton names last ih =>
      rw [wayFault?_concat]
      cases hway : d.wayFault? lead names with
      | none => exact hindrance?_ne_exists
      | some fault =>
          rw [hway] at ih
          exact ih

/-- On a free way no name is too long. -/
theorem size_le_of_wayFault? (h : d.wayFault? lead names = none) :
    ∀ name ∈ names, name.utf8ByteSize ≤ maxName := by
  intro name hname
  obtain ⟨front, rest, rfl⟩ := List.append_of_mem hname
  have hpre : front ++ [name] <+: front ++ name :: rest := ⟨rest, by simp⟩
  exact (hindrance?_eq_none_iff.mp (wayFault?_eq_none_iff.mp h front name hpre)).2.2.2

/-- The second disk is the first one with folders all along the way to a place, as far as the way is
free and nothing is there. -/
def Made (d : Disk) (lead : String) (names : Path) (e : Disk) : Prop :=
  ∀ place, e.node? place =
    if place <+: names ∧ d.wayFault? lead place = none ∧ d.node? place = none then some .folder
    else d.node? place

namespace Made

theorem grows (h : d.Made lead names e) : d.Grows e := by
  intro place
  by_cases hnew : place <+: names ∧ d.wayFault? lead place = none ∧ d.node? place = none
  · exact Or.inr ⟨hnew.2.2, (h place).trans (if_pos hnew)⟩
  · exact Or.inl ((h place).trans (if_neg hnew))

/-- Nothing has to be made where all folders are there. -/
theorem refl (h : ∀ above, above <+: names → d.node? above ≠ none) : d.Made lead names d := by
  intro place
  rw [if_neg]
  rintro ⟨hpre, -, hnone⟩
  exact h place hpre hnone

/-- On a free way there are folders in front of the last place, and something at it. -/
theorem folders (h : d.Made lead names e) (hway : d.wayFault? lead names = none) :
    (∀ above, above <+: names → above ≠ names → e.node? above = some .folder) ∧
      e.node? names ≠ none := by
  have hthere : ∀ above, above <+: names → e.node? above ≠ none := by
    intro above habove hnone
    have hfree := wayFault?_of_prefix habove hway
    rw [h above] at hnone
    split at hnone
    · simp at hnone
    next hold => exact hold ⟨habove, hfree, hnone⟩
  refine ⟨fun above habove hshort => node?_eq_folder (hthere above habove) ?_,
    hthere names List.prefix_rfl⟩
  obtain ⟨rest, rfl⟩ := habove
  obtain ⟨name, rest, rfl⟩ := List.exists_cons_of_ne_nil (show rest ≠ [] by
    rintro rfl
    exact hshort (List.append_nil _).symm)
  rw [h.grows.file?]
  exact (hindrance?_eq_none_iff.mp (wayFault?_eq_none_iff.mp hway above name
    ⟨rest, by simp⟩)).2.2.1

/-- A place behind the last one is as it was. -/
theorem concat_eq (h : d.Made lead names e) (name : String) :
    e.node? (names ++ [name]) = d.node? (names ++ [name]) := by
  rw [h, if_neg]
  rintro ⟨hpre, -⟩
  exact Path.ne_concat_of_prefix hpre name rfl

/-- Nothing more is made where the next name is hindered or something is at its place. -/
theorem concat (h : d.Made lead names e)
    (hdone : d.wayFault? lead (names ++ [name]) ≠ none ∨ d.node? (names ++ [name]) ≠ none) :
    d.Made lead (names ++ [name]) e := by
  intro place
  by_cases hplace : place = names ++ [name]
  · subst hplace
    rw [h.concat_eq, if_neg]
    rintro ⟨-, hway, hnone⟩
    rcases hdone with hfault | hthere
    · exact hfault hway
    · exact hthere hnone
  · have hpre : place <+: names ++ [name] ↔ place <+: names := by
      rw [List.prefix_concat_iff]
      exact or_iff_right hplace
    rw [h place]
    simp only [hpre]

theorem concat_put (h : d.Made lead names e) (hway : d.wayFault? lead (names ++ [name]) = none)
    (hnone : d.node? (names ++ [name]) = none) :
    d.Made lead (names ++ [name]) (e.put (names ++ [name]) .folder) := by
  intro place
  rw [node?_put (by simp)]
  by_cases hplace : place = names ++ [name]
  · subst hplace
    rw [if_pos rfl, if_pos ⟨List.prefix_rfl, hway, hnone⟩]
  · have hpre : place <+: names ++ [name] ↔ place <+: names := by
      rw [List.prefix_concat_iff]
      exact or_iff_right hplace
    rw [if_neg hplace, h place]
    simp only [hpre]

end Made

/-! ### Making folders -/

section

variable (h : (AbsolutePath.mk lead (front ++ [name])).Normal)
  (hfolders : ∀ above, above <+: front → above ≠ front → d.node? above = some .folder)
  (hfront : d.node? front ≠ none) (hsizes : ∀ other ∈ front, other.utf8ByteSize ≤ maxName)

include h hfolders hfront hsizes

/-- A text names a folder where nothing hinders following its last name and a folder is there. -/
theorem isFolder_concat :
    d.isFolder [] (AbsolutePath.mk lead (front ++ [name])).text =
      ((d.hindrance? lead front name).isNone &&
        decide (d.node? (front ++ [name]) = some .folder)) := by
  have hlocate := locate_concat h hfolders hfront hsizes []
  cases hhindrance : d.hindrance? lead front name with
  | some fault => simp [isFolder, look, hlocate, hhindrance, bind, Except.bind]
  | none =>
      simp only [hhindrance] at hlocate
      simp only [isFolder, look, hlocate, bind, Except.bind]
      cases d.node? (front ++ [name]) with
      | none => rfl
      | some node => cases node <;> rfl

/-- Making the last folder of a text fails where its name cannot be followed or is taken. -/
theorem makeFolder_concat :
    d.makeFolder [] (AbsolutePath.mk lead (front ++ [name])).text =
      match d.hindrance? lead front name with
      | some fault => .error fault
      | none =>
        if (d.node? (front ++ [name])).isSome then
          .error (.refused .exists (AbsolutePath.mk lead (front ++ [name])).text)
        else .ok (d.put (front ++ [name]) .folder) := by
  have hslash : (AbsolutePath.mk lead (front ++ [name])).text ≠ "/" := by
    intro hslash
    have hplace := AbsolutePath.follow_split_text h (by simp)
    rw [hslash] at hplace
    exact absurd hplace.symm (by simp [show Path.follow [] (Text.split '/' "/") = [] by decide])
  simp only [makeFolder, if_neg hslash, (AbsolutePath.withoutSlashes_text h).1,
    locate_concat h hfolders hfront hsizes []]
  cases hhindrance : d.hindrance? lead front name with
  | some fault =>
      cases fault with
      | nulInText => rfl
      | refused refusal other => rw [text_of_hindrance? hhindrance]; rfl
  | none => rfl

/-- Making the last folder of a text unless there is one. -/
theorem allowFolder_concat :
    let text := (AbsolutePath.mk lead (front ++ [name])).text
    d.allowFolder [] text =
      match d.hindrance? lead front name with
      | some fault => (d, .error fault)
      | none =>
        match d.node? (front ++ [name]) with
        | none => (d.put (front ++ [name]) .folder, .ok ())
        | some .folder => (d, .ok ())
        | some (.file _) => (d, .error (.refused .exists text)) := by
  have hmade := makeFolder_concat h hfolders hfront hsizes
  have hthere := isFolder_concat h hfolders hfront hsizes
  cases hhindrance : d.hindrance? lead front name with
  | some fault =>
      cases fault with
      | nulInText => simp [allowFolder, hmade, hhindrance]
      | refused refusal other => simp [allowFolder, hmade, hthere, hhindrance]
  | none =>
      cases hnode : d.node? (front ++ [name]) with
      | none => simp [allowFolder, hmade, hhindrance, hnode]
      | some node =>
          cases node with
          | file data => simp [allowFolder, hmade, hthere, hhindrance, hnode]
          | folder => simp [allowFolder, hmade, hthere, hhindrance, hnode]

end

/-- A text that leads somewhere has a free way, and all folders on it are there. -/
theorem way_of_has (h : (AbsolutePath.mk lead names).Normal)
    (hhas : d.has working (AbsolutePath.mk lead names).text = true) :
    d.wayFault? lead names = none ∧
      (∀ above, above <+: names → above ≠ names → d.node? above = some .folder) ∧
      d.node? names ≠ none := by
  by_cases hne : names = []
  · subst hne
    exact ⟨rfl, fun above habove hshort => absurd (List.prefix_nil.mp habove) hshort,
      by simp [node?]⟩
  · cases hlocate : d.locate working (AbsolutePath.mk lead names).text with
    | error fault => simp [has, look, hlocate, bind, Except.bind, Except.toOption] at hhas
    | ok place =>
        obtain ⟨hplace, hsize, hnames, hfolders⟩ := (locate_text_eq_ok_iff h hne).mp hlocate
        have hthere : d.node? names ≠ none := by
          intro hnone
          rw [show names = place from hplace.symm] at hnone
          simp [has, look, hlocate, bind, Except.bind, hnone, Except.toOption, throw, throwThe,
            MonadExceptOf.throw] at hhas
        refine ⟨?_, hfolders, hthere⟩
        rw [wayFault?_eq_none_iff]
        intro front name hpre
        rw [hindrance?_eq_none_iff]
        have hfront : d.node? front = some .folder := by
          apply hfolders front ((List.prefix_append _ _).trans hpre)
          rintro rfl
          exact Path.ne_concat_of_prefix hpre name rfl
        have hnormal : (AbsolutePath.mk lead (front ++ [name])).Normal :=
          ⟨h.lead, fun other hother => h.isName other (hpre.subset hother)⟩
        refine ⟨?_, (AbsolutePath.size_text_le hpre).trans hsize, by simp [file?, hfront],
          (hnames name (hpre.subset (by simp))).1⟩
        rw [AbsolutePath.nul_not_mem_text_iff hnormal]
        exact fun other hother => (hnames other (hpre.subset hother)).2

theorem has_lead (hlead : lead = "/" ∨ lead = "//") (d : Disk) (working : Path) :
    d.has working lead = true := by
  have htop : d.node? [] = some .folder := if_pos rfl
  have hwalk : d.walk [] (Text.split '/' lead) = .ok [] := by
    rcases hlead with rfl | rfl
    · rw [show Text.split '/' "/" = ["", ""] by decide]
      simp [walk, htop, Path.step]
    · rw [show Text.split '/' "//" = ["", "", ""] by decide]
      simp [walk, htop, Path.step]
  have hlocate : d.locate working lead = .ok [] := by
    rw [locate_eq_ok_iff]
    rcases hlead with rfl | rfl
    · exact ⟨by decide, by decide, by decide, hwalk⟩
    · exact ⟨by decide, by decide, by decide, hwalk⟩
  simp [has, look, hlocate, bind, Except.bind, htop, Except.toOption, pure, Except.pure]

/-- What making folders comes to: the first hindrance on the way, or that a file is in the place. -/
def madeAnswer (d : Disk) (lead : String) (names : Path) : Except Fault Unit :=
  match d.wayFault? lead names with
  | some fault => .error fault
  | none =>
    if (d.file? names).isSome then .error (.refused .exists (AbsolutePath.mk lead names).text)
    else .ok ()

theorem madeAnswer_eq_ok_iff :
    d.madeAnswer lead names = .ok () ↔ d.wayFault? lead names = none ∧ d.file? names = none := by
  rw [madeAnswer]
  cases d.wayFault? lead names with
  | some fault => simp
  | none => cases d.file? names <;> simp

/-- Where the folders in front of it have been made, making the last folder of a text makes all
that the text names. -/
theorem Made.allowFolder {made : Disk} (hmade : d.Made lead front made)
    (h : (AbsolutePath.mk lead (front ++ [name])).Normal) (hway : d.wayFault? lead front = none) :
    ∃ e, d.Made lead (front ++ [name]) e ∧
      made.allowFolder [] (AbsolutePath.mk lead (front ++ [name])).text =
        (e, d.madeAnswer lead (front ++ [name])) := by
  obtain ⟨hfolders, hfront⟩ := hmade.folders hway
  have hsame : made.hindrance? lead front name = d.hindrance? lead front name :=
    hindrance?_congr (by rw [hmade.grows.file?]) lead name
  have hwhole : d.wayFault? lead (front ++ [name]) = d.hindrance? lead front name := by
    rw [wayFault?_concat, hway, Option.none_or]
  rw [allowFolder_concat h hfolders hfront (size_le_of_wayFault? hway), hsame, hmade.concat_eq,
    madeAnswer, hwhole]
  cases hhindrance : d.hindrance? lead front name with
  | some fault => exact ⟨made, hmade.concat (Or.inl (by simp [hwhole, hhindrance])), rfl⟩
  | none =>
      cases hnode : d.node? (front ++ [name]) with
      | none =>
          have hfree : d.wayFault? lead (front ++ [name]) = none := by
            rw [hwhole, hhindrance]
          exact ⟨_, hmade.concat_put hfree hnode, by simp [file?, hnode]⟩
      | some node =>
          have hdone : d.Made lead (front ++ [name]) made :=
            hmade.concat (Or.inr (by simp [hnode]))
          cases node with
          | file data => exact ⟨made, hdone, by simp [file?, hnode]⟩
          | folder => exact ⟨made, hdone, by simp [file?, hnode]⟩

/-- Making the folders of a text makes all that are missing up to the first hindrance. -/
theorem makeFoldersFrom_text {fuel : Nat} (hfuel : names.length ≤ fuel)
    (h : (AbsolutePath.mk lead names).Normal) (hne : names ≠ []) (d : Disk) :
    ∃ e, d.Made lead names e ∧
      makeFoldersFrom [] fuel d (AbsolutePath.mk lead names).text =
        (e, d.madeAnswer lead names) := by
  induction names using List.reverseRecOn generalizing fuel with
  | nil => exact absurd rfl hne
  | append_singleton front name ih =>
      obtain ⟨fuel, rfl⟩ : ∃ n, fuel = n + 1 := by
        rw [List.length_append, List.length_singleton] at hfuel
        exact ⟨fuel - 1, by omega⟩
      have hfuel' : front.length ≤ fuel := by
        rw [List.length_append, List.length_singleton] at hfuel
        omega
      have hhead : (AbsolutePath.mk lead front).text ≠ "" := AbsolutePath.text_ne_empty h.dropLast
      rw [makeFoldersFrom, AbsolutePath.base_text h, if_neg h.last.ne_empty,
        AbsolutePath.folder_text h]
      simp only
      split
      next hmissing =>
        have hhas : d.has [] (AbsolutePath.mk lead front).text = false := by
          simpa using hmissing.2.2
        have hfront : front ≠ [] := by
          rintro rfl
          rw [AbsolutePath.text_nil, has_lead h.lead] at hhas
          simp at hhas
        obtain ⟨made, hmade, hrun⟩ := ih hfuel' h.dropLast hfront
        rw [hrun]
        cases hway : d.wayFault? lead front with
        | some fault =>
            have hwhole : d.wayFault? lead (front ++ [name]) = some fault := by
              rw [wayFault?_concat, hway, Option.some_or]
            have hnot : ∀ text, fault ≠ .refused .exists text := by
              rintro text rfl
              exact wayFault?_ne_exists hway
            refine ⟨made, hmade.concat (Or.inl (by simp [hwhole])), ?_⟩
            simp only [madeAnswer, hway, hwhole]
        | none =>
            obtain ⟨e, he, hmadeLast⟩ := hmade.allowFolder h hway
            refine ⟨e, he, ?_⟩
            rw [← hmadeLast]
            simp only [madeAnswer, hway, h.last.ne_here, if_false]
            split_ifs <;> rfl
      next hthere =>
        have hhas : d.has [] (AbsolutePath.mk lead front).text = true := by
          by_contra hnot
          exact hthere ⟨hhead, h.last.ne_empty, by simpa using hnot⟩
        obtain ⟨hway, hfolders, hfront⟩ := way_of_has h.dropLast hhas
        -- nothing is missing in front of the last name, so the disk itself counts as made
        have hmade : d.Made lead front d := by
          refine .refl fun above habove => ?_
          by_cases hall : above = front
          · rw [hall]
            exact hfront
          · rw [hfolders above habove hall]
            simp
        exact hmade.allowFolder h hway

theorem length_le_size_text (lead : String) (names : Path)
    (h : (AbsolutePath.mk lead names).Normal) :
    names.length ≤ (AbsolutePath.mk lead names).text.length := by
  induction names using List.reverseRecOn with
  | nil => exact Nat.zero_le _
  | append_singleton front name ih =>
      have hname : 0 < name.length := by
        rw [Nat.pos_iff_ne_zero, ne_eq, String.length_eq_zero_iff]
        exact h.last.ne_empty
      by_cases hne : front = []
      · subst hne
        have htext : (AbsolutePath.mk lead ([] ++ [name])).text = lead ++ name := by
          rw [AbsolutePath.text, Text.join, List.nil_append, String.intercalate_singleton]
        rw [htext, String.length_append]
        simp only [List.nil_append, List.length_singleton]
        omega
      · have hfront := ih h.dropLast
        rw [AbsolutePath.text_concat hne, String.length_append, String.length_append,
          List.length_append, List.length_singleton]
        omega

theorem makeFolders_text (h : (AbsolutePath.mk lead names).Normal) (hne : names ≠ []) (d : Disk) :
    ∃ e, d.Made lead names e ∧
      d.makeFolders [] (AbsolutePath.mk lead names).text = (e, d.madeAnswer lead names) :=
  makeFoldersFrom_text (length_le_size_text lead names h) h hne d

end Disk

end ArchiveExport
