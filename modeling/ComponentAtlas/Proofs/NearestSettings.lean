import ComponentAtlas.Proofs.FilePlaces
import ComponentAtlas.Settings.Load
import Mathlib.Data.List.Induction
import Mathlib.Data.List.Infix

namespace ComponentAtlas.Settings

variable {t : FileTree} {p : Location → Bool} {place found : Location}

-- Of a place and those above it, the first that passes a test: any other is above it.
structure Nearest (p : Location → Bool) (place found : Location) : Prop where
  above : found <+: place
  holds : p found = true
  first : ∀ other, other <+: place → p other = true → other <+: found

theorem ancestors_concat (place : Location) (name : String) :
    ancestors (place ++ [name]) = (place ++ [name]) :: ancestors place := by
  have whole : (place ++ [name]).take (place.length + 1) = place ++ [name] := List.take_of_length_le (by simp)
  have shorter : (List.range (place.length + 1)).map (place ++ [name]).take =
      (List.range (place.length + 1)).map place.take := by
    refine List.map_congr_left fun n member => ?_
    have short : n ≤ place.length := by
      rw [List.mem_range] at member
      omega
    exact List.take_append_of_le_length short
  unfold ancestors
  rw [List.length_append, List.length_singleton, List.range_succ, List.map_append, List.map_singleton, whole, shorter,
    List.reverse_concat]

theorem mem_ancestors : found ∈ ancestors place ↔ found <+: place := by
  induction place using List.reverseRecOn with
  | nil => simp [ancestors]
  | append_singleton place name ih => rw [ancestors_concat, List.mem_cons, ih, List.prefix_concat_iff]

theorem nearest_concat (fails : p (place ++ [name]) = false) :
    Nearest p (place ++ [name]) found ↔ Nearest p place found := by
  constructor
  · intro nearest
    refine ⟨?_, nearest.holds, fun other above => nearest.first other (above.trans (List.prefix_append _ _))⟩
    rcases List.prefix_concat_iff.mp nearest.above with rfl | above
    · exact absurd nearest.holds (ne_true_of_eq_false fails)
    · exact above
  · intro nearest
    refine ⟨nearest.above.trans (List.prefix_append _ _), nearest.holds, ?_⟩
    intro other above passes
    rcases List.prefix_concat_iff.mp above with rfl | above
    · exact absurd passes (ne_true_of_eq_false fails)
    · exact nearest.first other above passes

theorem nearest_here (passes : p place = true) : Nearest p place found ↔ found = place := by
  constructor
  · intro nearest
    have down := nearest.first place (List.prefix_refl _) passes
    exact nearest.above.eq_of_length_le down.length_le
  · rintro rfl
    exact ⟨List.prefix_refl _, passes, fun _ above _ => above⟩

theorem find?_ancestors : (ancestors place).find? p = some found ↔ Nearest p place found := by
  induction place using List.reverseRecOn with
  | nil =>
    have single : ancestors [] = [[]] := rfl
    rw [single]
    cases passes : p [] with
    | true =>
      rw [nearest_here passes]
      simp [passes, eq_comm]
    | false =>
      have none : ¬Nearest p [] found := by
        intro nearest
        obtain rfl := List.prefix_nil.mp nearest.above
        exact absurd nearest.holds (ne_true_of_eq_false passes)
      simp [passes, none]
  | append_singleton place name ih =>
    rw [ancestors_concat, List.find?_cons]
    cases passes : p (place ++ [name]) with
    | true =>
      rw [nearest_here passes]
      simp [eq_comm]
    | false =>
      rw [nearest_concat passes]
      exact ih

def hasFolder (t : FileTree) (place : Location) : Bool := t.entry? (place ++ [folderName]) = some .directory

def hasFile (t : FileTree) (place : Location) : Bool :=
  hasFolder t place &&
    match t.entry? (place ++ [folderName, fileName]) with
    | some (.file _) => true
    | _ => false

theorem hasFolder_of_hasFile (file : hasFile t place = true) : hasFolder t place = true :=
  (Bool.and_eq_true_iff.mp file).1

theorem findFolder_eq (t : FileTree) :
    findFolder t = ((ancestors t.workingDirectory).find? (hasFolder t)).map (· ++ [folderName]) := by
  unfold findFolder
  rw [List.find?_map]
  rfl

theorem hasFolder_of_locate
    (located : FileTree.locate { t with workingDirectory := place } ((Path.mk folderName).joinText fileName) = .ok found) :
    hasFolder t place = true := by
  have pieces : ((Path.mk folderName).joinText fileName).parts = [folderName.toList] ++ [fileName.toList] := by
    decide +kernel
  have relative : ((Path.mk folderName).joinText fileName).isAbsolute = false := by decide +kernel
  have steps : Path.steps [folderName.toList] = [folderName.toList] := by decide +kernel
  rw [FileTree.locate_eq (FileTree.text_of_locate located), pieces] at located
  have directory := FileTree.directory_of_walk located
  rw [FileTree.start, relative, steps] at directory
  exact decide_eq_true directory

theorem findFile_none (bare : ∀ place, place <+: t.workingDirectory → hasFolder t place = false) :
    findFile t ((Path.mk folderName).joinText fileName) = none := by
  have relative : ((Path.mk folderName).joinText fileName).isAbsolute = false := by decide +kernel
  unfold findFile
  dsimp only
  rw [relative, if_neg Bool.false_ne_true, List.findSome?_eq_none_iff]
  intro place member
  have missing := bare place (mem_ancestors.mp member)
  split
  · rename_i found located
    exact absurd (hasFolder_of_locate located) (ne_true_of_eq_false missing)
  · rfl

-- Without a settings folder there is no file; else the nearest folder decides.
theorem findWorkspaceFile_none (bare : ∀ place, place <+: t.workingDirectory → hasFolder t place = false) :
    findWorkspaceFile t = none := by
  have nowhere : (ancestors t.workingDirectory).find? (hasFolder t) = none := by
    rw [List.find?_eq_none]
    intro place member
    exact ne_true_of_eq_false (bare place (mem_ancestors.mp member))
  unfold findWorkspaceFile
  rw [findFolder_eq, nowhere]
  exact findFile_none bare

theorem findWorkspaceFile_nearest (nearest : Nearest (hasFolder t) t.workingDirectory found) :
    findWorkspaceFile t = if hasFile t found then some (found ++ [folderName, fileName]) else none := by
  have folder : findFolder t = some (found ++ [folderName]) := by
    rw [findFolder_eq, find?_ancestors.mpr nearest]
    rfl
  have joined : found ++ [folderName] ++ [fileName] = found ++ [folderName, fileName] := List.append_assoc _ _ _
  unfold findWorkspaceFile hasFile
  rw [folder, nearest.holds]
  dsimp only
  rw [joined]
  cases t.entry? (found ++ [folderName, fileName]) with
  | none => rfl
  | some entry =>
    cases entry with
    | file content => rfl
    | directory => rfl

theorem load_absent (none : findWorkspaceFile t = none) (env : Environment) :
    load t env = ofLayers [env.layer] := by
  unfold load
  rw [none]
  rfl

-- What is loaded is the nearest settings file, if its folder is the nearest settings folder; a bare folder that is nearer
-- hides the file, and with or without that folder the file layer counts as absent where no file is found.
theorem load_nearest (t : FileTree) (env : Environment) :
    (∀ place, Nearest (hasFile t) t.workingDirectory place →
      (Nearest (hasFolder t) t.workingDirectory place →
        load t env = loadAt t env (some (place ++ [folderName, fileName]))) ∧
      (¬Nearest (hasFolder t) t.workingDirectory place → load t env = ofLayers [env.layer])) ∧
    ((∀ place, place <+: t.workingDirectory → hasFile t place = false) → load t env = ofLayers [env.layer]) := by
  have hidden (missing : ∀ place, Nearest (hasFolder t) t.workingDirectory place → hasFile t place = false) :
      load t env = ofLayers [env.layer] := by
    refine load_absent ?_ env
    cases folder : (ancestors t.workingDirectory).find? (hasFolder t) with
    | none =>
      refine findWorkspaceFile_none fun place above => ?_
      exact Bool.eq_false_iff.mpr (List.find?_eq_none.mp folder place (mem_ancestors.mpr above))
    | some found =>
      have nearest := find?_ancestors.mp folder
      rw [findWorkspaceFile_nearest nearest, if_neg (ne_true_of_eq_false (missing found nearest))]
  refine ⟨fun place file => ⟨fun folder => ?_, fun other => hidden fun folder nearest => ?_⟩, fun nowhere => ?_⟩
  · unfold load
    rw [findWorkspaceFile_nearest folder, if_pos file.holds]
  · -- A file in the nearest folder would be the nearest file.
    refine Bool.eq_false_iff.mpr fun inside => other ?_
    have above := nearest.first place file.above (hasFolder_of_hasFile file.holds)
    have below := file.first folder nearest.above inside
    obtain rfl := above.eq_of_length_le below.length_le
    exact nearest
  · exact hidden fun folder nearest => nowhere folder nearest.above

-- A directory in which settings are kept, and another in it.
def lawn : FileTree :=
  { workingDirectory := ["home", "lawn"]
    entries :=
      [(["home"], .directory), (["home", ".tscomp"], .directory),
        (["home", ".tscomp", "settings.toml"], .file (.text "package_dir = \"pkg\"")),
        (["home", "lawn"], .directory)] }

theorem load_nearest_lawn : Nearest (hasFile lawn) lawn.workingDirectory ["home"] ∧
    Nearest (hasFolder lawn) lawn.workingDirectory ["home"] ∧
    (load lawn []).toOption.map (·.packageDir) = some ⟨"pkg"⟩ := by
  have file : Nearest (hasFile lawn) lawn.workingDirectory ["home"] := find?_ancestors.mp (by decide +kernel)
  have folder : Nearest (hasFolder lawn) lawn.workingDirectory ["home"] := find?_ancestors.mp (by decide +kernel)
  refine ⟨file, folder, ?_⟩
  rw [((load_nearest lawn []).1 ["home"] file).1 folder]
  decide +kernel

-- A bare settings folder that is nearer hides the file.
def fencedLawn : FileTree := lawn.set ["home", "lawn", ".tscomp"] .directory

theorem load_hidden : Nearest (hasFile fencedLawn) fencedLawn.workingDirectory ["home"] ∧
    (loadAt fencedLawn [] (some ["home", ".tscomp", "settings.toml"])).toOption.map (·.packageDir) = some ⟨"pkg"⟩ ∧
    (load fencedLawn []).toOption.map (·.packageDir) = some ⟨"."⟩ :=
  ⟨find?_ancestors.mp (by decide +kernel), by decide +kernel, by decide +kernel⟩

end ComponentAtlas.Settings
