import TableModels.Proofs.Files.NewDirectories
import TableModels.Proofs.Naming.PascalCase

/-!
# Paths above and beside a file

The path above a file leads to the directory that the file is in, and a path beside it leads to
another name in that directory. So nothing has to be made before a file can be written whose path
leads to a place already, and its temporary file can stand beside it.

## Implementation notes

The paths above and beside a file are put together from the components of its path, among which
there are no single dots but a first one. The file itself is located by the parts of its path.
-/

namespace TableModels

namespace Path

variable {names : List String} {name last : String} {c : Char}

/-- Components that are parts of paths are put together to a path that begins as it is told. -/
theorem isAbsolute_ofComponents (absolute : Bool) (h : ∀ name ∈ names, IsPathPart name) :
    (ofComponents absolute names).isAbsolute = absolute := by
  rw [isAbsolute, ofComponents, String.toList_append]
  cases absolute with
  | true => rfl
  | false =>
      cases names with
      | nil => rfl
      | cons name rest =>
          obtain ⟨hne, hslash⟩ := h name List.mem_cons_self
          obtain ⟨first, others, hname⟩ :=
            List.exists_cons_of_ne_nil (mt String.toList_eq_nil_iff.mp hne)
          have hfirst : first ≠ '/' := by
            rintro rfl
            exact hslash (hname ▸ List.mem_cons_self)
          cases rest <;> simp [String.intercalate_cons_cons, hname, hfirst]

/-- Between the slashes of a path there are the characters of its components. -/
theorem exists_mem_of_mem_ofComponents {absolute : Bool} (hslash : c ≠ '/')
    (h : c ∈ (ofComponents absolute names).text.toList) : ∃ name ∈ names, c ∈ name.toList := by
  rw [ofComponents, String.toList_append, List.mem_append] at h
  replace h : c ∈ (String.intercalate "/" names).toList := by
    rcases h with hroot | hnames
    · cases absolute <;> simp [hslash] at hroot
    · exact hnames
  induction names with
  | nil => simp at h
  | cons name rest ih =>
      cases rest with
      | nil => exact ⟨name, List.mem_cons_self, by simpa using h⟩
      | cons next others =>
          simp only [String.intercalate_cons_cons, String.toList_append, List.mem_append] at h
          rcases h with (hname | hbetween) | hothers
          · exact ⟨name, List.mem_cons_self, hname⟩
          · simp [hslash] at hbetween
          · obtain ⟨other, hother, hc⟩ := ih hothers
            exact ⟨other, List.mem_cons_of_mem _ hother, hc⟩

/-- A path that is put together ends in its last component. -/
theorem exists_text_ofComponents_eq (absolute : Bool) (names : List String) (last : String) :
    ∃ before, (ofComponents absolute (names ++ [last])).text.toList = before ++ last.toList := by
  have hnames : ∃ before, (String.intercalate "/" (names ++ [last])).toList =
      before ++ last.toList := by
    induction names with
    | nil => exact ⟨[], by simp⟩
    | cons name rest ih =>
        obtain ⟨before, hbefore⟩ := ih
        cases rest with
        | nil => exact ⟨name.toList ++ "/".toList, by simp [String.intercalate_cons_cons]⟩
        | cons next others =>
            rw [List.cons_append] at hbefore
            refine ⟨name.toList ++ "/".toList ++ before, ?_⟩
            rw [List.cons_append, List.cons_append, String.intercalate_cons_cons,
              String.toList_append, String.toList_append, hbefore, List.append_assoc,
              List.append_assoc, List.append_assoc]
  obtain ⟨before, hbefore⟩ := hnames
  refine ⟨(if absolute then "/" else "").toList ++ before, ?_⟩
  rw [ofComponents, String.toList_append, hbefore, List.append_assoc]

theorem endsInSlash_sibling (path : Path) (h : IsPathPart name) :
    (path.sibling name).endsInSlash = false := by
  obtain ⟨before, htext⟩ :=
    exists_text_ofComponents_eq path.isAbsolute path.components.dropLast name
  have hne : name.toList ≠ [] := mt String.toList_eq_nil_iff.mp h.1
  rw [endsInSlash, sibling, htext, List.getLast?_append_of_ne_nil _ hne, beq_eq_false_iff_ne]
  intro hslash
  exact h.2 (List.mem_of_getLast? hslash)

theorem mem_text_of_mem_segments {path : Path} (h : name ∈ path.segments)
    (hc : c ∈ name.toList) : c ∈ path.text.toList := by
  obtain ⟨piece, hpiece, rfl⟩ := List.mem_map.mp h
  rw [String.toList_ofList] at hc
  exact Text.mem_of_mem_split (List.mem_of_mem_filter hpiece) hc

theorem isPathPart_of_mem_components {path : Path} (h : name ∈ path.components) :
    IsPathPart name :=
  isPathPart_of_mem_segments (mem_segments_of_mem_components h)

/-- The last part of a path is its last component, unless it is a dot. -/
theorem exists_components_eq {path : Path} (hsegments : path.segments = names ++ [last])
    (hlast : last ≠ ".") :
    ∃ front, path.components = front ++ [last] ∧ withoutDots front = withoutDots names := by
  cases names with
  | nil =>
      have hbeq : (last == ".") = false := beq_false_of_ne hlast
      refine ⟨[], ?_, rfl⟩
      simp [components, hsegments, hbeq]
  | cons first rest =>
      have hlater : (rest ++ [last]).filter (· != ".") = withoutDots rest ++ [last] :=
        (List.filter_append ..).trans (congrArg _ (withoutDots_singleton hlast))
      have hidem : withoutDots (withoutDots rest) = withoutDots rest := by
        simp [withoutDots]
      by_cases hdot : (first == "." && path.isAbsolute) = true
      · have hfirst : first = "." := beq_iff_eq.mp (Bool.and_eq_true_iff.mp hdot).1
        refine ⟨withoutDots rest, ?_, ?_⟩
        · simp only [components, hsegments, List.cons_append, hdot, ↓reduceIte, hlater]
        · rw [hidem, hfirst]
          rfl
      · refine ⟨first :: withoutDots rest, ?_, ?_⟩
        · simp only [components, hsegments, List.cons_append, hdot, Bool.false_eq_true,
            ↓reduceIte, hlater]
        · rw [← List.singleton_append, ← @List.singleton_append _ first rest, withoutDots_append,
            withoutDots_append, hidem]

/-- A part of a path without null characters can be the name of a file. -/
theorem noNull_of_mem_components {path : Path} (h : '\x00' ∉ path.text.toList)
    (hname : name ∈ path.components) : '\x00' ∉ name.toList :=
  fun hc => h (mem_text_of_mem_segments (mem_segments_of_mem_components hname) hc)

end Path

namespace FileTree

variable {tree : FileTree} {path : Path} {place found : Place} {names : List String}
  {name : String}

/-- Names lead from a directory to a directory, and all directories above it are there, too. -/
theorem isDirectory_of_follow? (h : tree.follow? place names = some found)
    (hplace : ∀ above, above <+: place → tree.isDirectory above = true) :
    ∀ above, above <+: found → tree.isDirectory above = true := by
  induction names generalizing place with
  | nil =>
      cases h
      exact hplace
  | cons first rest ih =>
      rw [follow?] at h
      split_ifs at h with hdot hup hdirectory
      · exact ih h hplace
      · exact ih h fun above habove => hplace above (habove.trans (List.dropLast_prefix _))
      · apply ih h
        intro above habove
        rcases List.prefix_concat_iff.mp habove with rfl | hshorter
        · exact hdirectory
        · exact hplace above hshorter

theorem isDirectory_of_prefix_start {above : Place} (h : above <+: tree.start path) :
    tree.isDirectory above = true := by
  have hworking : above <+: tree.workingDirectory := by
    rw [start] at h
    split_ifs at h
    · rw [List.prefix_nil.mp h]
      exact List.nil_prefix
    · exact h
  rw [isDirectory, node?, if_pos (List.isPrefixOf_iff_prefix.mpr hworking)]

/-- A path to something that is no directory names it: the path above leads to the directory that it
is in. -/
theorem exists_leadsInto_parent (h : tree.locate? path = some place)
    (hfile : tree.isDirectory place = false) :
    ∃ directory name, path.fileName? = some name ∧ place = directory ++ [name] ∧
      name ∈ path.components ∧ '\x00' ∉ path.text.toList ∧
      tree.LeadsInto path.parent directory := by
  have hnull : '\x00' ∉ path.text.toList := by
    intro hmem
    simp [locate?, hmem] at h
  rcases List.eq_nil_or_concat path.segments with hnil | ⟨names, last, hsegments⟩
  · -- the root is a directory
    have hroot : tree.isDirectory [] = true := by simp [isDirectory, node?]
    rw [locate?, hnil] at h
    split_ifs at h
    cases h
    exact absurd hroot (Bool.eq_false_iff.mp hfile)
  rw [List.concat_eq_append] at hsegments
  obtain ⟨directory, hfollow, rfl⟩ := exists_follow?_of_locate? hsegments h
  have hdirectories := isDirectory_of_follow? hfollow fun _ => isDirectory_of_prefix_start
  have hdot : last ≠ "." := by
    rintro rfl
    rw [if_pos rfl, hdirectories directory (List.prefix_refl _)] at hfile
    cases hfile
  have hup : last ≠ ".." := by
    rintro rfl
    rw [if_neg hdot, if_pos rfl, hdirectories _ (List.dropLast_prefix _)] at hfile
    cases hfile
  obtain ⟨front, hcomponents, hfront⟩ := Path.exists_components_eq hsegments hdot
  have hparts : ∀ part ∈ front, part ∈ path.components := by
    intro part hpart
    rw [hcomponents]
    exact List.mem_append_left _ hpart
  have hparent : path.parent = Path.ofComponents path.isAbsolute front := by
    rw [Path.parent, hcomponents, List.dropLast_concat]
  have hpathParts : ∀ part ∈ front, IsPathPart part := fun part hpart =>
    Path.isPathPart_of_mem_components (hparts part hpart)
  refine ⟨directory, last, ?_, by rw [if_neg hdot, if_neg hup], ?_, hnull, ?_, ?_⟩
  · rw [Path.fileName?, hcomponents, List.getLast?_concat]
    simp [hdot, hup]
  · rw [hcomponents]
    exact List.mem_append_right _ List.mem_cons_self
  · rw [hparent]
    intro hmem
    obtain ⟨part, hpart, hc⟩ := Path.exists_mem_of_mem_ofComponents (by decide) hmem
    exact Path.noNull_of_mem_components hnull (hparts part hpart) hc
  · rw [hparent, Path.segments_ofComponents _ hpathParts, start,
      Path.isAbsolute_ofComponents _ hpathParts, ← follow?_withoutDots, hfront,
      follow?_withoutDots]
    exact hfollow

/-- Where directories are led to, none have to be made. -/
theorem makeAlong_of_follow? (h : tree.follow? place names = some found) :
    tree.makeAlong place names = (true, tree) := by
  induction names generalizing place with
  | nil => rfl
  | cons first rest ih =>
      rw [follow?] at h
      rw [makeAlong]
      split_ifs at h ⊢ with hdot hup hdirectory
      · exact ih h
      · exact ih h
      · split
        · exact ih h
        · rename_i hnode
          rw [isDirectory, hnode] at hdirectory
          cases hdirectory
        · rename_i hnode
          rw [isDirectory, hnode] at hdirectory
          cases hdirectory

theorem LeadsInto.makeDirectories (h : tree.LeadsInto path place) :
    tree.makeDirectories path = (true, tree) := by
  have hnull : path.text.toList.contains '\x00' = false := by
    rw [Bool.eq_false_iff, ne_eq, List.contains_iff_mem]
    exact h.noNull
  rw [FileTree.makeDirectories, hnull]
  exact makeAlong_of_follow? h.follow?

/-- A path beside a file leads into the directory to which the path above the file leads. -/
theorem LeadsInto.locate?_sibling (h : tree.LeadsInto path.parent place)
    (hname : IsFileName name) : tree.locate? (path.sibling name) = some (place ++ [name]) := by
  have hparts : ∀ part ∈ path.components.dropLast, IsPathPart part := fun part hpart =>
    Path.isPathPart_of_mem_components (List.dropLast_subset _ hpart)
  have hall : ∀ part ∈ path.components.dropLast ++ [name], IsPathPart part :=
    List.forall_mem_append.mpr ⟨hparts, List.forall_mem_singleton.mpr hname.part⟩
  have hsegments : (path.sibling name).segments = path.components.dropLast ++ [name] :=
    Path.segments_ofComponents _ hall
  have hstart : tree.start (path.sibling name) = tree.start path.parent := by
    rw [start, start, Path.parent, Path.sibling, Path.isAbsolute_ofComponents _ hall,
      Path.isAbsolute_ofComponents _ hparts]
  have hfollow := h.follow?
  rw [Path.parent, Path.segments_ofComponents _ hparts, ← Path.parent] at hfollow
  have htext : ((path.sibling name).text.isEmpty ||
      (path.sibling name).text.toList.contains '\x00') = false := by
    rw [Bool.or_eq_false_iff]
    constructor
    · rw [Bool.eq_false_iff]
      intro hempty
      rw [Path.segments, String.isEmpty_iff.mp hempty] at hsegments
      exact List.append_ne_nil_of_right_ne_nil _ (List.cons_ne_nil name []) hsegments.symm
    · rw [Bool.eq_false_iff, ne_eq, List.contains_iff_mem]
      intro hmem
      obtain ⟨part, hpart, hc⟩ := Path.exists_mem_of_mem_ofComponents (by decide) hmem
      rcases List.mem_append.mp hpart with hpart | hpart
      · rw [← Path.segments_ofComponents path.isAbsolute hparts, ← Path.parent] at hpart
        exact h.noNull (Path.mem_text_of_mem_segments hpart hc)
      · obtain rfl := List.mem_singleton.mp hpart
        exact hname.noNull hc
  rw [locate?, htext, hsegments, List.getLast?_concat, List.dropLast_concat, hstart, hfollow]
  simp [hname.notDot, hname.notUp]

end FileTree

end TableModels
