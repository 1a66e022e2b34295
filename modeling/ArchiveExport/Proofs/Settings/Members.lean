import ArchiveExport.Proofs.Data.OrderedMap
import ArchiveExport.Proofs.Script.Header
import ArchiveExport.Proofs.Text.Wide
import ArchiveExport.Settings.Storage

/-!
# Taking over settings

A setting takes the value that a file has for it as it is. The modes alone are put into the form of
their names first, and are rejected unless they are some of those there are. Whatever a file says,
no setting comes or goes, and those that the file does not name keep their values. Two members of a
file can break this off: a name without a meaning that cannot be printed, and modes that are nested
too deep to be shown. What stands in front of such a member has been taken over then.
-/

namespace ArchiveExport

open Text (Wide)

section Results

variable {α β ε : Type} {f : α → Except ε β} {xs : List α} {ys : List β}

theorem mem_of_mapM_eq_ok (h : xs.mapM f = .ok ys) {y : β} (hy : y ∈ ys) :
    ∃ x ∈ xs, f x = .ok y := by
  induction xs generalizing ys with
  | nil =>
      obtain rfl := Except.ok.inj h
      cases hy
  | cons x xs ih =>
      rw [List.mapM_cons] at h
      cases hx : f x with
      | error fault =>
          rw [hx] at h
          cases h
      | ok z =>
          cases hxs : xs.mapM f with
          | error fault =>
              rw [hx, hxs] at h
              cases h
          | ok zs =>
              rw [hx, hxs] at h
              obtain rfl := Except.ok.inj h
              rcases List.mem_cons.mp hy with rfl | hy
              · exact ⟨x, List.mem_cons_self, hx⟩
              · obtain ⟨w, hw, hfw⟩ := ih hxs hy
                exact ⟨w, List.mem_cons_of_mem x hw, hfw⟩

theorem mapM_map_eq_ok {g : β → α} (h : ∀ y ∈ ys, f (g y) = .ok y) :
    (ys.map g).mapM f = .ok ys := by
  induction ys with
  | nil => rfl
  | cons y ys ih =>
      obtain ⟨hy, hys⟩ := List.forall_mem_cons.mp h
      rw [List.map_cons, List.mapM_cons, hy, ih hys]
      rfl

end Results

namespace Settings

variable {s t u : Settings} {stack : Stack} {name : String} {value : Json Wide}
  {members : List (Wide × Json Wide)} {notices more : List Notice}

/-! ### Modes -/

/-- The names of modes that a value lists, in their form: at least one, and none that there is
not. -/
def modesOf (stack : Stack) (value : Json Wide) : Except Setting.Misuse (List String) := do
  let names ← (← Setting.parts value).mapM fun item => do
    return Mode.nameForm (← Setting.shown stack.showing item).narrow
  if names.isEmpty ∨ !names.all (· ∈ knownModes) then
    throw .modes
  return names

theorem setDefaultModes_eq (s : Settings) (stack : Stack) (value : Json Wide) :
    s.setDefaultModes stack value =
      (modesOf stack value).map fun names => s.put "default_modes" (listed names) := by
  unfold setDefaultModes modesOf
  cases Setting.parts value with
  | error misuse => rfl
  | ok items =>
      simp only [bind, Except.bind]
      split
      · rfl
      · split
        · rfl
        · rfl

/-- Some of the modes that there are. -/
structure AreModes (names : List String) : Prop where
  nonempty : names ≠ []
  known : ∀ name ∈ names, name ∈ knownModes
  form : ∀ name ∈ names, Mode.nameForm name = name

theorem modesOf_eq_ok {names : List String} (h : modesOf stack value = .ok names) :
    AreModes names := by
  unfold modesOf at h
  cases hparts : Setting.parts value with
  | error misuse =>
      rw [hparts] at h
      cases h
  | ok items =>
      simp only [hparts, bind, Except.bind] at h
      split at h
      next => cases h
      next forms hforms =>
        split at h
        next => cases h
        next hlisted =>
          obtain rfl := Except.ok.inj h
          rw [not_or, Bool.not_eq_true, List.isEmpty_eq_false_iff] at hlisted
          refine ⟨hlisted.1, fun name hname => ?_, fun name hname => ?_⟩
          · have hall : ∀ name ∈ forms, name ∈ knownModes := by simpa using hlisted.2
            exact hall name hname
          · obtain ⟨item, -, hitem⟩ := mem_of_mapM_eq_ok hforms hname
            split at hitem
            · cases hitem
            · obtain rfl := Except.ok.inj hitem
              exact Mode.nameForm_nameForm _

/-- Modes are listed by the array of their names. -/
theorem AreModes.modesOf_listed {names : List String} (h : AreModes names) (stack : Stack) :
    modesOf stack (listed names) = .ok names := by
  have hforms : (names.map fun name => Json.text (Wide.ofString name)).mapM (fun item => do
      return Mode.nameForm (← Setting.shown stack.showing item).narrow) =
        (.ok names : Except Setting.Misuse (List String)) := by
    refine mapM_map_eq_ok fun name hname => ?_
    have hshown : Setting.shown stack.showing (.text (Wide.ofString name)) =
        .ok (Wide.ofString name) := rfl
    rw [hshown]
    exact congrArg Except.ok ((congrArg Mode.nameForm (Wide.narrow_ofString name)).trans
      (h.form name hname))
  have hlisted : ¬ (names.isEmpty = true ∨ (!names.all (· ∈ knownModes)) = true) := by
    rw [not_or, Bool.not_eq_true, List.isEmpty_eq_false_iff]
    refine ⟨h.nonempty, ?_⟩
    simpa using h.known
  have hparts : Setting.parts (listed names) =
      .ok (names.map fun name => Json.text (Wide.ofString name)) := rfl
  simp only [modesOf, hparts, bind, Except.bind] at hforms ⊢
  rw [hforms]
  exact if_neg hlisted

/-! ### Single members -/

/-- What a setting holds once it has taken a value from a file, if it takes it. -/
def taken (stack : Stack) (name : String) (value : Json Wide) :
    Except Setting.Misuse (Json Wide) :=
  if name = "default_modes" then (modesOf stack value).map listed else .ok value

theorem taken_of_ne (h : name ≠ "default_modes") (stack : Stack) (value : Json Wide) :
    taken stack name value = .ok value :=
  if_neg h

/-- Modes that have been taken are taken again as they are. -/
theorem AreModes.taken_listed {names : List String} (h : AreModes names) (stack : Stack) :
    taken stack "default_modes" (listed names) = .ok (listed names) := by
  rw [taken, if_pos rfl, h.modesOf_listed]
  rfl

/-- A member of a file breaks off what is read of the file, among settings of some names: its name
has no meaning and half of a pair, or its setting cannot be shown. -/
inductive Breaks (stack : Stack) (names : List String) : Wide × Json Wide → LoadFault → Prop
  | printed {name : Wide} {value : Json Wide} (h : name.toString? = none) :
      Breaks stack names (name, value) (.printed name)
  | shown {name : String} {value : Json Wide} (hname : name ∈ names)
      (h : taken stack name value = .error .tooDeep) :
      Breaks stack names (.ofString name, value) (.shown .tooDeep)

theorem breaks_ofString_iff {names : List String} {fault : LoadFault} :
    Breaks stack names (.ofString name, value) fault ↔
      name ∈ names ∧ taken stack name value = .error .tooDeep ∧ fault = .shown .tooDeep := by
  constructor
  · intro h
    generalize hm : (Wide.ofString name, value) = m at h
    cases h with
    | printed htext =>
        obtain ⟨rfl, -⟩ := Prod.mk.inj hm
        rw [Wide.toString?_ofString] at htext
        cases htext
    | shown hname htaken =>
        obtain ⟨hsame, rfl⟩ := Prod.mk.inj hm
        obtain rfl := Wide.ofString_injective hsame
        exact ⟨hname, htaken, rfl⟩
  · rintro ⟨hname, htaken, rfl⟩
    exact .shown hname htaken

/-- A member of a file breaks off the reading; or it is unknown, or its setting takes the value, or
the value is rejected. -/
theorem takeMember_cases (s : Settings) (stack : Stack) (m : Wide × Json Wide) :
    (∃ fault, Breaks stack s.values.keys m fault ∧
      s.takeMember stack m.1 m.2 = .error fault) ∨
    ∃ name value, m = (.ofString name, value) ∧
      ((name ∉ s.values.keys ∧ s.takeMember stack m.1 m.2 = .ok (s, [.unknownName name])) ∨
      (name ∈ s.values.keys ∧ ∃ held modified, taken stack name value = .ok held ∧
        s.takeMember stack m.1 m.2 =
          .ok ({ s with values := s.values.insert name held, modified }, [])) ∨
      (name ∈ s.values.keys ∧ ∃ misuse, misuse ≠ .tooDeep ∧
        taken stack name value = .error misuse ∧
        s.takeMember stack m.1 m.2 = .ok (s, [.rejected name misuse]))) := by
  obtain ⟨text, value⟩ := m
  unfold takeMember
  cases htext : text.toString? with
  | none => exact Or.inl ⟨_, .printed htext, rfl⟩
  | some name =>
      obtain rfl := Wide.toString?_eq_some_iff.mp htext
      by_cases hknown : name ∈ s.values.keys
      · have hcontains := (OrderedMap.contains_iff_mem_keys s.values name).mpr hknown
        by_cases hmodes : name = "default_modes"
        · subst hmodes
          have htaken : taken stack "default_modes" value = (modesOf stack value).map listed :=
            if_pos rfl
          -- the setter rewrites the value, so what is held is what it makes of it
          simp only [hcontains, Bool.not_true, Bool.false_eq_true, if_false, if_true,
            setDefaultModes_eq]
          cases hof : modesOf stack value with
          | ok names =>
              rw [hof] at htaken
              exact Or.inr ⟨_, value, rfl, Or.inr (Or.inl ⟨hknown, _, true, htaken, rfl⟩)⟩
          | error misuse =>
              rw [hof] at htaken
              by_cases hdeep : misuse = .tooDeep
              · subst hdeep
                exact Or.inl ⟨_, .shown hknown htaken, rfl⟩
              · refine Or.inr ⟨_, value, rfl, Or.inr (Or.inr ⟨hknown, misuse, hdeep, htaken, ?_⟩)⟩
                cases misuse <;> first | rfl | exact absurd rfl hdeep
        · refine Or.inr ⟨name, value, rfl, Or.inr (Or.inl ⟨hknown, value, s.modified,
            taken_of_ne hmodes stack value, ?_⟩)⟩
          simp [hcontains, hmodes]
      · have hcontains : s.values.contains name = false := by
          rw [← Bool.not_eq_true, OrderedMap.contains_iff_mem_keys]
          exact hknown
        exact Or.inr ⟨name, value, rfl, Or.inl ⟨hknown, by simp [hcontains]⟩⟩

/-! ### Whole files -/

/-- What is said of a member of a file, among settings of some names. -/
def noticesOf (stack : Stack) (names : List String) (member : Wide × Json Wide) : List Notice :=
  match member.1.toString? with
  | none => []
  | some name =>
    if name ∈ names then
      match taken stack name member.2 with
      | .ok _ => []
      | .error misuse => [.rejected name misuse]
    else [.unknownName name]

/-- The second settings are the first ones with the members of a file taken over: each known one
has the value of the file or, where that is rejected, its old value and a notice that says so. -/
structure TakesOver (stack : Stack) (s : Settings) (members : List (Wide × Json Wide))
    (t : Settings) (notices : List Notice) : Prop where
  path : t.path = s.path
  keys : t.values.keys = s.values.keys
  held : ∀ name value, (.ofString name, value) ∈ members → name ∈ s.values.keys → ∀ held,
    taken stack name value = .ok held → t.value? name = some held
  rejected : ∀ name value, (.ofString name, value) ∈ members → ∀ misuse,
    taken stack name value = .error misuse → t.value? name = s.value? name
  unnamed : ∀ name, .ofString name ∉ members.map Prod.fst → t.value? name = s.value? name
  notices : notices = members.flatMap (noticesOf stack s.values.keys)

theorem TakesOver.nil (stack : Stack) (s : Settings) : TakesOver stack s [] s [] where
  path := rfl
  keys := rfl
  held := fun _ _ hm => absurd hm List.not_mem_nil
  rejected := fun _ _ hm => absurd hm List.not_mem_nil
  unnamed := fun _ _ => rfl
  notices := rfl

/-- A member that does not break the reading off is taken over. -/
theorem takesOver_takeMember (s : Settings) (stack : Stack) (m : Wide × Json Wide) :
    (∃ fault, Breaks stack s.values.keys m fault ∧
      s.takeMember stack m.1 m.2 = .error fault) ∨
    ∃ t notices, s.takeMember stack m.1 m.2 = .ok (t, notices) ∧
      TakesOver stack s [m] t notices ∧ ∀ fault, ¬ Breaks stack s.values.keys m fault := by
  have hsingle {m : Wide × Json Wide} {name other : String} {value found : Json Wide}
      (hm : m = (.ofString name, value)) (hfound : (Wide.ofString other, found) ∈ [m]) :
      other = name ∧ found = value := by
    obtain ⟨hsame, hvalue⟩ := Prod.mk.inj ((List.mem_singleton.mp hfound).trans hm)
    exact ⟨Wide.ofString_injective hsame, hvalue⟩
  rcases takeMember_cases s stack m with hbreaks | ⟨name, value, hm, hcases⟩
  · exact Or.inl hbreaks
  right
  rcases hcases with ⟨hunknown, htake⟩ | ⟨hknown, held, modified, htaken, htake⟩ |
    ⟨hknown, misuse, hdeep, htaken, htake⟩
  · refine ⟨s, _, htake, ⟨rfl, rfl, fun other found hfound hknown => ?_, fun _ _ _ _ _ => rfl,
      fun _ _ => rfl, ?_⟩, fun fault hbreaks => ?_⟩
    · obtain ⟨rfl, -⟩ := hsingle hm hfound
      exact absurd hknown hunknown
    · simp [hm, noticesOf, hunknown]
    · rw [hm, breaks_ofString_iff] at hbreaks
      exact hunknown hbreaks.1
  · refine ⟨_, _, htake, ⟨rfl, OrderedMap.keys_insert_of_mem hknown held,
      fun other found hfound _ held' htaken' => ?_, fun other found hfound misuse htaken' => ?_,
      fun other hother => ?_, ?_⟩, fun fault hbreaks => ?_⟩
    · obtain ⟨rfl, rfl⟩ := hsingle hm hfound
      rw [value?, OrderedMap.find?_insert, if_pos rfl]
      rw [htaken] at htaken'
      exact congrArg some (Except.ok.inj htaken')
    · obtain ⟨rfl, rfl⟩ := hsingle hm hfound
      rw [htaken] at htaken'
      cases htaken'
    · have hne : other ≠ name := by
        rintro rfl
        simp [hm] at hother
      rw [value?, OrderedMap.find?_insert, if_neg hne]
      rfl
    · simp [hm, noticesOf, hknown, htaken]
    · rw [hm, breaks_ofString_iff, htaken] at hbreaks
      cases hbreaks.2.1
  · refine ⟨s, _, htake, ⟨rfl, rfl, fun other found hfound _ held htaken' => ?_,
      fun _ _ _ _ _ => rfl, fun _ _ => rfl, ?_⟩, fun fault hbreaks => ?_⟩
    · obtain ⟨rfl, rfl⟩ := hsingle hm hfound
      rw [htaken] at htaken'
      cases htaken'
    · simp [hm, noticesOf, hknown, htaken]
    · rw [hm, breaks_ofString_iff, htaken] at hbreaks
      exact hdeep (Except.error.inj hbreaks.2.1)

/-- Members of other names do not undo what was taken over before. -/
theorem TakesOver.cons {m : Wide × Json Wide} (h : TakesOver stack s [m] t notices)
    (hrest : TakesOver stack t members u more) (hnew : m.1 ∉ members.map Prod.fst) :
    TakesOver stack s (m :: members) u (notices ++ more) where
  path := hrest.path.trans h.path
  keys := hrest.keys.trans h.keys
  held := by
    intro name value hmem hknown held htaken
    rcases List.mem_cons.mp hmem with rfl | hmem
    · rw [hrest.unnamed name hnew]
      exact h.held name value List.mem_cons_self hknown held htaken
    · exact hrest.held name value hmem (h.keys ▸ hknown) held htaken
  rejected := by
    intro name value hmem misuse htaken
    rcases List.mem_cons.mp hmem with rfl | hmem
    · rw [hrest.unnamed name hnew]
      exact h.rejected name value List.mem_cons_self misuse htaken
    · have hne : .ofString name ∉ [m].map Prod.fst := by
        intro hsame
        rw [List.map_singleton, List.mem_singleton] at hsame
        exact hnew (hsame ▸ List.mem_map_of_mem hmem)
      rw [hrest.rejected name value hmem misuse htaken, h.unnamed name hne]
  unnamed := by
    intro name hname
    rw [List.map_cons, List.mem_cons, not_or] at hname
    rw [hrest.unnamed name hname.2, h.unnamed name (by simpa using hname.1)]
  notices := by
    rw [h.notices, hrest.notices, h.keys, List.flatMap_cons, List.flatMap_cons, List.flatMap_nil,
      List.append_nil]

/-- The members of an object are taken over one by one: all of them, or those in front of the first
one that breaks this off. -/
theorem takesOver_takeMembers (hnames : (members.map Prod.fst).Nodup) (s : Settings)
    (stack : Stack) :
    (∃ t notices, s.takeMembers stack members = (t, notices, .ok ()) ∧
      TakesOver stack s members t notices ∧
      ∀ m ∈ members, ∀ fault, ¬ Breaks stack s.values.keys m fault) ∨
    ∃ before m after fault t notices, members = before ++ m :: after ∧
      s.takeMembers stack members = (t, notices, .error fault) ∧
      TakesOver stack s before t notices ∧ Breaks stack s.values.keys m fault := by
  induction members generalizing s with
  | nil => exact Or.inl ⟨s, [], rfl, .nil stack s, fun _ hm => absurd hm List.not_mem_nil⟩
  | cons m members ih =>
      rw [List.map_cons, List.nodup_cons] at hnames
      rcases takesOver_takeMember s stack m with ⟨fault, hbreaks, htake⟩ |
        ⟨t, notices, htake, htakes, hwhole⟩
      · refine Or.inr ⟨[], m, members, fault, s, [], rfl, ?_, .nil stack s, hbreaks⟩
        rw [takeMembers, htake]
      rcases ih hnames.2 t with ⟨u, more, hmembers, hrest, hunbroken⟩ |
        ⟨before, n, after, fault, u, more, rfl, hmembers, hrest, hbreaks⟩
      · refine Or.inl ⟨u, notices ++ more, ?_, htakes.cons hrest hnames.1, ?_⟩
        · rw [takeMembers, htake]
          simp only [hmembers]
        · rw [htakes.keys] at hunbroken
          exact List.forall_mem_cons.mpr ⟨hwhole, hunbroken⟩
      · have hnew : m.1 ∉ before.map Prod.fst := by
          rw [List.map_append, List.mem_append, not_or] at hnames
          exact hnames.1.1
        refine Or.inr ⟨m :: before, n, after, fault, u, notices ++ more, rfl, ?_,
          htakes.cons hrest hnew, htakes.keys ▸ hbreaks⟩
        rw [takeMembers, htake]
        simp only [hmembers]

end Settings

end ArchiveExport
