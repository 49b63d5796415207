import TableModels.Files.AtomicWrite
import TableModels.Proofs.Text.Splitting

/-!
# Where paths lead

A path leads to a place that is made of names of the path and of the working directory, and the
place of a file ends in the name of the file. So two files beside each other have different places,
and a file below a directory has the name of that directory in its place.

## Implementation notes

Single dots change nothing about where a path leads, so the last part of a path that is no dot is
the one that counts.
-/

namespace TableModels

/-- The text is a part of paths: it is not empty, and there is no slash in it. -/
def IsPathPart (name : String) : Prop :=
  name ≠ "" ∧ '/' ∉ name.toList

/-! ### Names of temporary files -/

theorem length_temporaryName (name : String) :
    ("." ++ name ++ ".tmp").length = name.length + 5 := by
  have hone : ".".length = 1 := rfl
  have hfour : ".tmp".length = 4 := rfl
  simp only [String.length_append]
  omega

theorem temporaryName_ne (name : String) {other : String} (h : other.length < 5) :
    "." ++ name ++ ".tmp" ≠ other := by
  rintro rfl
  rw [length_temporaryName] at h
  omega

/-- The marks around the name of a temporary file bring no character into it but their own. -/
theorem notMem_temporaryName {name : String} {c : Char} (hmarks : c ∉ ".tmp".toList)
    (h : c ∉ name.toList) : c ∉ ("." ++ name ++ ".tmp").toList := by
  have hdot : c ∉ ".".toList := fun hmem => hmarks (by simp at hmem; simp [hmem])
  simp only [String.toList_append, List.mem_append, not_or]
  exact ⟨⟨hdot, h⟩, hmarks⟩

theorem isPathPart_temporaryName {name : String} (h : IsPathPart name) :
    IsPathPart ("." ++ name ++ ".tmp") :=
  ⟨temporaryName_ne name (by decide), notMem_temporaryName (by decide) h.2⟩

namespace Path

/-! ### Parts of paths -/

/-- The parts of a text between its slashes, without the empty ones. -/
def partsOf (text : List Char) : List String :=
  ((Text.split (· == '/') text).filter (!·.isEmpty)).map String.ofList

theorem segments_eq (path : Path) : path.segments = partsOf path.text.toList := rfl

theorem partsOf_append_slash (text rest : List Char) :
    partsOf (text ++ '/' :: rest) = partsOf text ++ partsOf rest := by
  have hsplit : Text.split (· == '/') (text ++ '/' :: rest) =
      Text.split (· == '/') text ++ Text.split (· == '/') rest := Text.split_append rfl text rest
  rw [partsOf, hsplit, List.filter_append, List.map_append]
  rfl

theorem partsOf_toList {name : String} (h : IsPathPart name) : partsOf name.toList = [name] := by
  simp [partsOf, Text.split_of_notMem h.2, h.1]

theorem isPathPart_of_mem_segments {path : Path} {name : String} (h : name ∈ path.segments) :
    IsPathPart name := by
  obtain ⟨piece, hpiece, rfl⟩ := List.mem_map.mp h
  obtain ⟨hmem, hne⟩ := List.mem_filter.mp hpiece
  refine ⟨by simpa using hne, fun hslash => ?_⟩
  rw [String.toList_ofList] at hslash
  exact absurd (Text.separates_eq_false_of_mem_split hmem _ hslash) (by decide)

/-- The path to a name inside a directory has one part more. -/
theorem segments_child (path : Path) {name : String} (h : IsPathPart name) :
    (path.child name).segments = path.segments ++ [name] := by
  rw [segments_eq, segments_eq, ← partsOf_toList h, child]
  split_ifs with hslash
  · rw [String.toList_append]
    rcases Bool.or_eq_true_iff.mp hslash with hempty | hends
    · rw [String.isEmpty_iff.mp hempty]
      rfl
    · obtain ⟨start, hstart⟩ := List.getLast?_eq_some_iff.mp (beq_iff_eq.mp hends)
      rw [hstart, List.append_assoc, List.singleton_append, partsOf_append_slash,
        partsOf_append_slash, show partsOf [] = [] from rfl, List.append_nil]
  · rw [String.toList_append, String.toList_append, List.append_assoc]
    exact partsOf_append_slash _ _

theorem partsOf_intercalate {names : List String} (h : ∀ name ∈ names, IsPathPart name) :
    partsOf (String.intercalate "/" names).toList = names := by
  induction names with
  | nil => rfl
  | cons name rest ih =>
      rw [List.forall_mem_cons] at h
      cases rest with
      | nil => simpa using partsOf_toList h.1
      | cons next others =>
          rw [String.intercalate_cons_cons, String.toList_append, String.toList_append,
            List.append_assoc]
          calc
            partsOf (name.toList ++ '/' :: (String.intercalate "/" (next :: others)).toList)
                = partsOf name.toList
                    ++ partsOf (String.intercalate "/" (next :: others)).toList :=
              partsOf_append_slash _ _
            _ = name :: next :: others := by rw [partsOf_toList h.1, ih h.2]; rfl

theorem segments_ofComponents (absolute : Bool) {names : List String}
    (h : ∀ name ∈ names, IsPathPart name) : (ofComponents absolute names).segments = names := by
  rw [segments_eq, ofComponents, String.toList_append]
  cases absolute with
  | false => exact partsOf_intercalate h
  | true => exact (partsOf_append_slash [] _).trans (partsOf_intercalate h)

/-- Components are parts between slashes. -/
theorem mem_segments_of_mem_components {path : Path} {name : String} (h : name ∈ path.components) :
    name ∈ path.segments := by
  unfold components at h
  split at h
  · cases h
  · rename_i first rest hsegments
    rw [hsegments]
    dsimp only at h
    split_ifs at h
    · exact List.mem_cons_of_mem _ (List.mem_of_mem_filter h)
    · rcases List.mem_cons.mp h with rfl | h
      · exact List.mem_cons_self
      · exact List.mem_cons_of_mem _ (List.mem_of_mem_filter h)

/-- The names without the single dots. -/
def withoutDots (names : List String) : List String :=
  names.filter (· != ".")

@[simp] theorem withoutDots_append (names later : List String) :
    withoutDots (names ++ later) = withoutDots names ++ withoutDots later :=
  List.filter_append _ _

@[simp] theorem withoutDots_dot : withoutDots ["."] = [] := rfl

theorem withoutDots_singleton {name : String} (h : name ≠ ".") : withoutDots [name] = [name] := by
  simp [withoutDots, h]

theorem ne_dot_of_mem_withoutDots {names : List String} {name : String}
    (h : name ∈ withoutDots names) : name ≠ "." :=
  bne_iff_ne.mp (List.mem_filter.mp h).2

/-- The last part of a path that is no dot. -/
def lastPart? (path : Path) : Option String :=
  (withoutDots path.segments).getLast?

theorem withoutDots_components (path : Path) :
    withoutDots path.components = withoutDots path.segments := by
  unfold components
  split
  · rename_i hsegments
    rw [hsegments]
  · rename_i first rest hsegments
    rw [hsegments]
    dsimp only
    split_ifs with hdot
    · have hfirst : first = "." := beq_iff_eq.mp (Bool.and_eq_true_iff.mp hdot).1
      simp [withoutDots, hfirst]
    · simp [withoutDots, List.filter_cons]

/-- The name of the file is the last part that is no dot. -/
theorem lastPart?_of_fileName? {path : Path} {name : String} (h : path.fileName? = some name) :
    path.lastPart? = some name ∧ name ≠ ".." := by
  obtain ⟨hlast, hname⟩ := Option.filter_eq_some_iff.mp h
  obtain ⟨hdot, hup⟩ := Bool.and_eq_true_iff.mp hname
  obtain ⟨before, hcomponents⟩ := List.getLast?_eq_some_iff.mp hlast
  refine ⟨?_, bne_iff_ne.mp hup⟩
  rw [lastPart?, ← withoutDots_components, hcomponents, withoutDots_append,
    withoutDots_singleton (bne_iff_ne.mp hdot)]
  exact List.getLast?_concat

theorem lastPart?_sibling (path : Path) {name : String} (h : IsPathPart name) (hdot : name ≠ ".") :
    (path.sibling name).lastPart? = some name := by
  have hparts : ∀ part ∈ path.components.dropLast ++ [name], IsPathPart part := by
    rw [List.forall_mem_append]
    constructor
    · intro part hpart
      exact isPathPart_of_mem_segments
        (mem_segments_of_mem_components (List.dropLast_subset _ hpart))
    · exact List.forall_mem_singleton.mpr h
  rw [lastPart?, sibling, segments_ofComponents _ hparts, withoutDots_append,
    withoutDots_singleton hdot]
  exact List.getLast?_concat

end Path

namespace FileTree

variable {tree : FileTree} {path : Path} {place : Place}

theorem follow?_append (tree : FileTree) (place : Place) (names later : List String) :
    tree.follow? place (names ++ later) =
      (tree.follow? place names).bind fun found => tree.follow? found later := by
  induction names generalizing place with
  | nil => rfl
  | cons name rest ih =>
      rw [List.cons_append, follow?, follow?]
      split_ifs
      · exact ih place
      · exact ih place.dropLast
      · exact ih (place ++ [name])
      · rfl

/-- Single dots make no difference. -/
theorem follow?_withoutDots (tree : FileTree) (place : Place) (names : List String) :
    tree.follow? place (Path.withoutDots names) = tree.follow? place names := by
  induction names generalizing place with
  | nil => rfl
  | cons name rest ih =>
      rw [← List.singleton_append, Path.withoutDots_append]
      by_cases hdot : name = "."
      · subst hdot
        exact ih place
      · rw [Path.withoutDots_singleton hdot, List.singleton_append, List.singleton_append, follow?,
          follow?]
        simp only [ih]

/-- Names lead to a place made of them and of the names of the place at which they start. -/
theorem mem_of_follow? {start : Place} {names : List String}
    (h : tree.follow? start names = some place) : ∀ name ∈ place, name ∈ start ∨ name ∈ names := by
  induction names generalizing start with
  | nil =>
      cases h
      exact fun name hname => Or.inl hname
  | cons first rest ih =>
      rw [follow?] at h
      intro name hname
      split_ifs at h
      · exact (ih h name hname).imp_right (List.mem_cons_of_mem _)
      · exact (ih h name hname).imp (List.dropLast_subset _ ·) (List.mem_cons_of_mem _)
      · rcases ih h name hname with hstart | hrest
        · rcases List.mem_append.mp hstart with hstart | hfirst
          · exact Or.inl hstart
          · exact Or.inr (List.mem_singleton.mp hfirst ▸ List.mem_cons_self)
        · exact Or.inr (List.mem_cons_of_mem _ hrest)

/-- A path that is no root leads from the directory of its last part to the place of that part. -/
theorem exists_follow?_of_locate? {names : List String} {last : String}
    (hsegments : path.segments = names ++ [last]) (h : tree.locate? path = some place) :
    ∃ directory, tree.follow? (tree.start path) names = some directory ∧
      place = if last = "." then directory
        else if last = ".." then directory.dropLast else directory ++ [last] := by
  rw [locate?, hsegments, List.getLast?_concat, List.dropLast_concat] at h
  split_ifs at h
  cases hfollow : tree.follow? (tree.start path) names with
  | none => simp [hfollow] at h
  | some directory =>
      refine ⟨directory, rfl, ?_⟩
      simp only [hfollow] at h
      split_ifs at h ⊢ <;> exact (Option.some.inj h).symm

/-- A path leads to a place that is made of its parts and of the names of the working directory. -/
theorem mem_of_locate? (h : tree.locate? path = some place) :
    ∀ name ∈ place, name ∈ tree.workingDirectory ∨ name ∈ path.segments := by
  have hstart : ∀ name ∈ tree.start path, name ∈ tree.workingDirectory := by
    intro name hname
    rw [start] at hname
    split_ifs at hname
    · cases hname
    · exact hname
  rcases List.eq_nil_or_concat path.segments with hnil | ⟨names, last, hsegments⟩
  · rw [locate?, hnil] at h
    split_ifs at h
    cases h
    exact List.forall_mem_nil _
  · rw [List.concat_eq_append] at hsegments
    obtain ⟨directory, hfollow, rfl⟩ := exists_follow?_of_locate? hsegments h
    have hdirectory : ∀ name ∈ directory,
        name ∈ tree.workingDirectory ∨ name ∈ path.segments := by
      intro name hname
      rw [hsegments]
      exact (mem_of_follow? hfollow name hname).imp (hstart name) (List.mem_append_left _)
    intro name hname
    split_ifs at hname
    · exact hdirectory name hname
    · exact hdirectory name (List.dropLast_subset _ hname)
    · rcases List.mem_append.mp hname with hname | hname
      · exact hdirectory name hname
      · rw [List.mem_singleton.mp hname, hsegments]
        exact Or.inr (List.mem_append_right _ List.mem_cons_self)

/-- Names that end in one that is no dots lead to a place that ends in it. -/
theorem getLast?_of_follow? {start : Place} {names : List String} {name : String}
    (h : tree.follow? start names = some place)
    (hlast : (Path.withoutDots names).getLast? = some name) (hup : name ≠ "..") :
    place.getLast? = some name := by
  obtain ⟨before, hnames⟩ := List.getLast?_eq_some_iff.mp hlast
  have hdot := Path.ne_dot_of_mem_withoutDots (List.mem_of_getLast? hlast)
  rw [← follow?_withoutDots, hnames, follow?_append] at h
  obtain ⟨directory, -, hfound⟩ := Option.bind_eq_some_iff.mp h
  rw [follow?, if_neg hdot, if_neg hup] at hfound
  split_ifs at hfound
  cases hfound
  exact List.getLast?_concat

/-- A path that names a file leads to a place that ends in the name of the file. -/
theorem getLast?_of_locate? {name : String} (h : tree.locate? path = some place)
    (hlast : path.lastPart? = some name) (hup : name ≠ "..") : place.getLast? = some name := by
  rcases List.eq_nil_or_concat path.segments with hnil | ⟨names, last, hsegments⟩
  · rw [Path.lastPart?, hnil] at hlast
    cases hlast
  rw [List.concat_eq_append] at hsegments
  obtain ⟨directory, hfollow, rfl⟩ := exists_follow?_of_locate? hsegments h
  rw [Path.lastPart?, hsegments, Path.withoutDots_append] at hlast
  by_cases hdot : last = "."
  · subst hdot
    rw [if_pos rfl]
    exact getLast?_of_follow? hfollow (by simpa using hlast) hup
  · rw [Path.withoutDots_singleton hdot, List.getLast?_concat] at hlast
    cases hlast
    rw [if_neg hdot, if_neg hup]
    exact List.getLast?_concat

/-- The temporary file of an atomic write is not at the place of the file that it will become. -/
theorem locate?_temporary_ne {temporary : Path} (htemporary : temporaryPath? path = some temporary)
    (h : tree.locate? path = some place) : tree.locate? temporary ≠ some place := by
  obtain ⟨name, hname, rfl⟩ := Option.map_eq_some_iff.mp htemporary
  intro hsame
  obtain ⟨hlast, hup⟩ := Path.lastPart?_of_fileName? hname
  have hmem : name ∈ path.segments := by
    apply List.mem_of_mem_filter
    exact List.mem_of_getLast? hlast
  have hpart := isPathPart_temporaryName (Path.isPathPart_of_mem_segments hmem)
  have htemp := getLast?_of_locate? hsame
    (Path.lastPart?_sibling path hpart (temporaryName_ne name (by decide)))
    (temporaryName_ne name (by decide))
  rw [getLast?_of_locate? h hlast hup] at htemp
  have hequal := congrArg String.length (Option.some.inj htemp)
  rw [length_temporaryName] at hequal
  omega

/-- A file below a directory has the name of that directory in its place. -/
theorem mem_of_locate?_child {name file : String} (hname : IsPathPart name) (hup : name ≠ "..")
    (hdot : name ≠ ".") (hfile : IsPathPart file) (hfileUp : file ≠ "..")
    (h : tree.locate? ((path.child name).child file) = some place) : name ∈ place := by
  have hsegments : ((path.child name).child file).segments =
      (path.segments ++ [name]) ++ [file] := by
    rw [Path.segments_child _ hfile, Path.segments_child _ hname]
  obtain ⟨directory, hfollow, rfl⟩ := exists_follow?_of_locate? hsegments h
  have hlast : directory.getLast? = some name := by
    apply getLast?_of_follow? hfollow _ hup
    rw [Path.withoutDots_append, Path.withoutDots_singleton hdot]
    exact List.getLast?_concat
  have hmem : name ∈ directory := List.mem_of_getLast? hlast
  split_ifs
  · exact hmem
  · exact List.mem_append_left _ hmem

end FileTree

end TableModels
