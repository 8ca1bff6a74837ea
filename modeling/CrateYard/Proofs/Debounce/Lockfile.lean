import CrateYard.Debounce.Basic
import CrateYard.Proofs.FileTree.Canonical
import CrateYard.Proofs.Project.Owner
import CrateYard.Proofs.Refresh.Landing

/-! The reports that a debouncer hears. A report of a `Cargo.toml` is looked up by its canonical path, so it is heard
however the path is spelled. A report of a `Cargo.lock` is compared, as it is spelled, with the lock files beside the
manifests, whose paths are canonical. So one that goes through a link or a step upwards is passed over, also if it leads
to the lock file of an attached project. -/

namespace CrateYard

namespace Path

variable {l : Location} {body : List String} {name stem ext : String} {m file : Path}

/-! File names with a point. -/

theorem splitExtension_append (hstem : stem ≠ "") (h : '.' ∉ ext.toList) :
    splitExtension (stem ++ "." ++ ext) = (stem, some ext) := by
  have hreversed : (stem ++ "." ++ ext).toList.reverse = ext.toList.reverse ++ '.' :: stem.toList.reverse := by
    simp
  rw [splitExtension, hreversed, Text.splitOnce_append_cons (by simpa using h)]
  simp [hstem]

theorem eq_append_of_splitExtension (h : (splitExtension name).2 = some ext) :
    ∃ stem, stem ≠ "" ∧ name = stem ++ "." ++ ext := by
  simp only [splitExtension] at h
  split at h
  · next before after hsplit =>
    obtain ⟨hreversed, -⟩ := Text.splitOnce_eq_some hsplit
    split at h
    · cases h
    · next hne =>
      cases h
      refine ⟨String.ofList after.reverse, by simpa using hne, ?_⟩
      rw [← String.toList_inj, ← List.reverse_inj, hreversed]
      simp
  · cases h

/-! Around the last name of a location. -/

theorem rejoin_root (l : Location) : rejoin [""] l = l.toPath := by
  cases l with
  | nil => decide
  | cons s rest => simp [rejoin, ofSegments, Location.toPath]

theorem trimmed_append (h : component? name ≠ none) : trimmed (body ++ [name]) = body ++ [name] := by
  simp [trimmed, Option.isNone_iff_eq_none, h]

theorem trimmed_eq_self (h : ∀ s ∈ body, component? s ≠ none) : trimmed body = body := by
  rcases List.eq_nil_or_concat' body with rfl | ⟨above, name, rfl⟩
  · rfl
  · exact trimmed_append (h name (by simp))

theorem fileName?_eq_some_iff : file.fileName? = some name ↔ ∃ above, file.components = above ++ [.name name] := by
  constructor
  · intro h
    unfold fileName? at h
    split at h
    · next s hlast =>
      cases h
      exact List.getLast?_eq_some_iff.1 hlast
    · cases h
  · rintro ⟨above, h⟩
    rw [fileName?, h, List.getLast?_concat]

theorem components_toPath_append (h : ∀ s ∈ l ++ [name], '/' ∉ s.toList) (hname : FileTree.isName name = true) :
    (Location.toPath (l ++ [name])).components = .root :: l.filterMap component? ++ [.name name] := by
  rw [FileTree.components_toPath_of_notMem h, List.filterMap_append]
  simp [FileTree.component?_of_isName hname]

theorem fileName?_toPath (h : ∀ s ∈ l ++ [name], '/' ∉ s.toList) (hname : FileTree.isName name = true) :
    (Location.toPath (l ++ [name])).fileName? = some name :=
  fileName?_eq_some_iff.2 ⟨_, components_toPath_append h hname⟩

theorem dir_toPath (h : ∀ s ∈ l ++ [name], FileTree.IsEntryName s) :
    (Location.toPath (l ++ [name])).dir = l.toPath := by
  have hnames : ∀ s ∈ l ++ [name], component? s ≠ none := fun s hs => by
    simp [FileTree.component?_of_isName (h s hs).1]
  have hparts : (Location.toPath (l ++ [name])).parts = ([""], l ++ [name]) :=
    FileTree.parts_toPath (by simp) fun s hs => (h s hs).2.1
  have habove : trimmed l = l := trimmed_eq_self fun s hs => hnames s (List.mem_append_left _ hs)
  have hparent : (Location.toPath (l ++ [name])).parent? = some l.toPath := by
    simp only [parent?, hparts, trimmed_eq_self hnames]
    split
    · next hnil => simp at hnil
    · next b rest hcons => rw [← hcons, List.dropLast_concat, habove, rejoin_root]
  rw [dir, hparent, Option.getD_some]

theorem text_toPath_append (l : Location) (stem ext : String) :
    (Location.toPath (l ++ [stem ++ ext])).text = (Location.toPath (l ++ [stem])).text ++ ext := by
  by_cases hl : l = []
  · simp [hl, Location.toPath, String.append_assoc]
  · simp only [Location.toPath, String.intercalate_append_of_ne_nil hl (List.cons_ne_nil _ _),
      String.intercalate_singleton, String.append_assoc]

theorem shorten_toPath (l : Location) (stem ext : String) :
    (Location.toPath (l ++ [stem ++ ext])).shorten ext.length = Location.toPath (l ++ [stem]) := by
  simp [shorten, text_toPath_append, ← String.length_toList]

theorem setExtension_toPath (h : ∀ s ∈ l ++ [name], '/' ∉ s.toList) (hname : FileTree.isName name = true) :
    (Location.toPath (l ++ [name])).setExtension ext =
      Location.toPath (l ++ [(splitExtension name).1 ++ "." ++ ext]) := by
  have hparts : (Location.toPath (l ++ [name])).parts = ([""], l ++ [name]) := FileTree.parts_toPath (by simp) h
  have htrimmed : trimmed (l ++ [name]) = l ++ [name] :=
    trimmed_append (by simp [FileTree.component?_of_isName hname])
  simp only [setExtension, hparts, fileName?_toPath h hname, htrimmed, List.dropLast_concat, rejoin_root]

theorem setExtension_of_fileName? (h : m.fileName? = none) : m.setExtension ext = m := by
  simp [setExtension, h]

/-! Names that end in `.toml`. -/

theorem append_toml (stem : String) : stem ++ ".toml" = stem ++ "." ++ "toml" := by
  rw [String.append_assoc]
  rfl

theorem splitExtension_toml (hstem : stem ≠ "") : splitExtension (stem ++ ".toml") = (stem, some "toml") := by
  rw [append_toml]
  exact splitExtension_append hstem (by decide)

theorem eq_append_toml (h : (splitExtension name).2 = some "toml") : ∃ stem, stem ≠ "" ∧ name = stem ++ ".toml" := by
  obtain ⟨stem, hstem, rfl⟩ := eq_append_of_splitExtension h
  exact ⟨stem, hstem, String.append_assoc⟩

theorem isName_append_point (hstem : stem ≠ "") (hdot : stem ≠ ".") : FileTree.isName (stem ++ ".") = true := by
  have htwo : stem ++ "." ≠ "." ++ "." := fun h => hdot ((String.append_left_inj _).1 h)
  simpa [FileTree.isName, hstem] using htwo

theorem isName_append_lock (stem : String) : FileTree.isName (stem ++ ".lock") = true := by
  have hlong : ∀ short : String, short.length < 5 → stem ++ ".lock" ≠ short := by
    rintro short hshort rfl
    rw [String.length_append, show ".lock".length = 5 by decide] at hshort
    omega
  simp [FileTree.isName, hlong "." (by decide), hlong ".." (by decide)]

/-! The lock file of a manifest. -/

/-- What the lock file ends in for a manifest of this name. A manifest `..toml` has no stem that is a name. -/
def lockComponent (name : String) : Component :=
  if (splitExtension name).2 = some "toml" then
    if (splitExtension name).1 = "." then .up else .name ((splitExtension name).1 ++ ".lock")
  else .name name

theorem lockComponent_toml (hstem : stem ≠ "") :
    lockComponent (stem ++ ".toml") = if stem = "." then .up else .name (stem ++ ".lock") := by
  rw [lockComponent, splitExtension_toml hstem, if_pos rfl]

theorem lockComponent_eq_iff : lockComponent name = .name lockName ↔ name = manifestName.text ∨ name = lockName := by
  by_cases hext : (splitExtension name).2 = some "toml"
  · obtain ⟨stem, hstem, rfl⟩ := eq_append_toml hext
    have hlock : stem ++ ".toml" ≠ lockName := by
      intro h
      rw [h] at hext
      exact absurd hext (by decide)
    have hmanifest : stem ++ ".toml" = manifestName.text ↔ stem = "Cargo" := by
      rw [show manifestName.text = "Cargo" ++ ".toml" by decide, String.append_left_inj]
    have hcargo : stem ++ ".lock" = lockName ↔ stem = "Cargo" := by
      rw [show lockName = "Cargo" ++ ".lock" by decide, String.append_left_inj]
    rw [lockComponent_toml hstem, or_iff_left hlock, hmanifest]
    split
    · next hdot => simp [hdot]
    · rw [Component.name.injEq, hcargo]
  · have hmanifest : name ≠ manifestName.text := by
      rintro rfl
      exact hext (by decide)
    rw [lockComponent, if_neg hext, or_iff_right hmanifest, Component.name.injEq]

theorem lockFile_of_toml (h : ∀ s ∈ l ++ [stem ++ ".toml"], '/' ∉ s.toList)
    (hname : FileTree.isName (stem ++ ".toml") = true) (hstem : stem ≠ "") :
    (Location.toPath (l ++ [stem ++ ".toml"])).lockFile =
      (Location.toPath (l ++ [stem ++ "."])).setExtension "lock" := by
  have hext : (Location.toPath (l ++ [stem ++ ".toml"])).extension? = some "toml" := by
    rw [extension?, fileName?_toPath h hname, Option.bind_some, splitExtension_toml hstem]
  have hshorter : (Location.toPath (l ++ [stem ++ ".toml"])).shorten 4 = Location.toPath (l ++ [stem ++ "."]) := by
    rw [append_toml]
    exact shorten_toPath l (stem ++ ".") "toml"
  rw [lockFile, if_pos hext, withExtension, hext]
  exact congrArg (fun p => setExtension p "lock") hshorter

theorem components_setExtension_lock (h : ∀ s ∈ l ++ [stem], '/' ∉ s.toList) (hstem : stem ≠ "") :
    ((Location.toPath (l ++ [stem ++ "."])).setExtension "lock").components =
      .root :: l.filterMap component? ++ [if stem = "." then .up else .name (stem ++ ".lock")] := by
  have hbelow : ∀ last : String, '/' ∉ last.toList → ∀ s ∈ l ++ [stem ++ last], '/' ∉ s.toList := by
    intro last hlast s hs
    rcases List.mem_append.1 hs with hs | hs
    · exact h s (List.mem_append_left _ hs)
    · rw [List.mem_singleton.1 hs, String.toList_append, List.mem_append, not_or]
      exact ⟨h stem (by simp), hlast⟩
  split
  · next hdot =>
    have hcomponents : (Location.toPath (l ++ [stem ++ "."])).components =
        .root :: l.filterMap component? ++ [.up] := by
      rw [FileTree.components_toPath_of_notMem (hbelow "." (by decide)), List.filterMap_append, hdot]
      rfl
    have hnone : (Location.toPath (l ++ [stem ++ "."])).fileName? = none := by
      rw [fileName?, hcomponents, List.getLast?_concat]
    rw [setExtension_of_fileName? hnone, hcomponents]
  · next hdot =>
    have hsplit : splitExtension (stem ++ "." ++ "") = (stem, some "") := splitExtension_append hstem (by decide)
    rw [String.append_empty] at hsplit
    have hend : stem ++ "." ++ "lock" = stem ++ ".lock" := String.append_assoc
    rw [setExtension_toPath (hbelow "." (by decide)) (isName_append_point hstem hdot), hsplit, hend,
      components_toPath_append (hbelow ".lock" (by decide)) (isName_append_lock stem)]

theorem components_lockFile_toPath (h : ∀ s ∈ l ++ [name], FileTree.IsEntryName s) :
    (Location.toPath (l ++ [name])).lockFile.components = l.toPath.components ++ [lockComponent name] := by
  have hslash : ∀ s ∈ l ++ [name], '/' ∉ s.toList := fun s hs => (h s hs).2.1
  have habove : ∀ s ∈ l, '/' ∉ s.toList := fun s hs => hslash s (List.mem_append_left _ hs)
  have hname : FileTree.isName name = true := (h name (by simp)).1
  rw [FileTree.components_toPath_of_notMem habove]
  by_cases hext : (splitExtension name).2 = some "toml"
  · obtain ⟨stem, hstem, rfl⟩ := eq_append_toml hext
    have hstem' : ∀ s ∈ l ++ [stem], '/' ∉ s.toList := by
      intro s hs
      rcases List.mem_append.1 hs with hs | hs
      · exact habove s hs
      · have hwhole := hslash (stem ++ ".toml") (by simp)
        rw [String.toList_append, List.mem_append, not_or] at hwhole
        rw [List.mem_singleton.1 hs]
        exact hwhole.1
    rw [lockFile_of_toml hslash hname hstem, components_setExtension_lock hstem' hstem, lockComponent_toml hstem]
  · have hother : (Location.toPath (l ++ [name])).extension? ≠ some "toml" := by
      rwa [extension?, fileName?_toPath hslash hname, Option.bind_some]
    rw [lockFile, if_neg hother, components_toPath_append hslash hname, lockComponent, if_neg hext]

/-- A path that a file system has worked out, now or at another time. -/
def IsCanonical (m : Path) : Prop :=
  ∃ (t : FileTree) (given : Path), t.IsTree ∧ t.canonical given = .ok m

theorem IsCanonical.exists_toPath (h : m.IsCanonical) :
    ∃ l, m = Location.toPath l ∧ ∀ s ∈ l, FileTree.IsEntryName s := by
  obtain ⟨t, given, ht, hcanonical⟩ := h
  obtain ⟨-, -, l, e, rfl, -, he, -⟩ := FileTree.of_canonical ht hcanonical
  exact ⟨l, rfl, fun s hs => ht.isEntryName he hs⟩

/-- A `Cargo.lock` is the lock file of a manifest exactly if it is spelled as the one in its directory, and the manifest
is a `Cargo.toml`, or that `Cargo.lock` itself. -/
theorem components_lockFile_eq_iff (hm : m.IsCanonical) (hfile : file.fileName? = some lockName) :
    m.lockFile.components = file.components ↔
      (m.fileName? = some manifestName.text ∨ m.fileName? = some lockName) ∧
        file.components = m.dir.components ++ [.name lockName] := by
  obtain ⟨above, habove⟩ := fileName?_eq_some_iff.1 hfile
  obtain ⟨l, rfl, hnames⟩ := hm.exists_toPath
  rw [habove]
  rcases List.eq_nil_or_concat' l with rfl | ⟨l, name, rfl⟩
  · have hroot : (Location.toPath []).fileName? = none ∧ (Location.toPath []).lockFile.fileName? = none := by
      decide
    refine ⟨fun h => ?_, ?_⟩
    · have hlock := fileName?_eq_some_iff.2 ⟨above, h⟩
      rw [hroot.2] at hlock
      cases hlock
    · rw [hroot.1]
      rintro ⟨h | h, -⟩ <;> cases h
  · rw [components_lockFile_toPath hnames, dir_toPath hnames,
      fileName?_toPath (fun s hs => (hnames s hs).2.1) (hnames name (by simp)).1, Option.some_inj, Option.some_inj,
      ← lockComponent_eq_iff, List.append_left_inj]
    constructor
    · intro h
      obtain ⟨hdir, hlast⟩ := List.append_inj' h rfl
      exact ⟨(List.cons.inj hlast).1, hdir.symm⟩
    · rintro ⟨hlast, rfl⟩
      rw [hlast]

end Path

namespace Debouncer

variable {d : Debouncer} {p : Project} {file q : Path}

theorem changed_of_matters (h : d.matters file = true) : d.changed file = d.send (.changed file) :=
  if_pos h

theorem matters_of_manifest (hp : p ∈ d.yard.registry.projects) (hq : d.yard.tree.canonical file = .ok q)
    (hbelow : q.startsWith p.directory = true) (hname : file.fileName? = some Path.manifestName.text) :
    d.matters file = true := by
  have hlocate : d.yard.tree.locate file = q := by rw [FileTree.locate, hq]
  have hcovers : p.covers (d.yard.tree.locate file) = true := by
    rw [hlocate]
    exact Project.Encloses.covers hbelow
  obtain ⟨owner, -, howner, -⟩ := Registry.exists_projectOf? ⟨p, hp, hcovers⟩
  rw [matters, if_pos hname, howner, Option.isSome_some]

/-- The file is called `Cargo.toml`, or its spelling is that of the lock file of an attached manifest. -/
def Hears (d : Debouncer) (file : Path) : Prop :=
  file.fileName? = some Path.manifestName.text ∨
    ∃ m ∈ d.yard.registry.manifests, (m.fileName? = some Path.manifestName.text ∨ m.fileName? = some Path.lockName) ∧
      file.components = m.dir.components ++ [.name Path.lockName]

theorem matters_eq_true_iff (hm : ∀ m ∈ d.yard.registry.manifests, m.IsCanonical)
    (hname : file.fileName? ≠ some Path.manifestName.text) : d.matters file = true ↔ d.Hears file := by
  have hbeside : d.matters file = true ↔ file.fileName? = some Path.lockName ∧
      ∃ m ∈ d.yard.registry.manifests, m.lockFile.components = file.components := by
    simp [matters, if_neg hname, List.any_eq_true, Path.same_iff]
  rw [hbeside, Hears, or_iff_right hname]
  constructor
  · rintro ⟨hlock, m, hmem, heq⟩
    exact ⟨m, hmem, (Path.components_lockFile_eq_iff (hm m hmem) hlock).1 heq⟩
  · rintro ⟨m, hmem, hspelled⟩
    have hlock : file.fileName? = some Path.lockName := Path.fileName?_eq_some_iff.2 ⟨_, hspelled.2⟩
    exact ⟨hlock, m, hmem, (Path.components_lockFile_eq_iff (hm m hmem) hlock).2 hspelled⟩

theorem startsWith_of_components {below : List Component} (h : q.components = p.directory.components ++ below) :
    q.startsWith p.directory = true := by
  rw [Path.startsWith, h, List.isPrefixOf_iff_prefix]
  exact List.prefix_append _ _

/-- A report of the lock file beside an attached manifest is sent exactly if its own name is `Cargo.toml` or it is
spelled as such a lock file, but for doubled slashes and single dots. A report of the manifest is sent under any
spelling that keeps its name. -/
theorem changed_of_lock (hm : ∀ m ∈ d.yard.registry.manifests, m.IsCanonical) (hp : p ∈ d.yard.registry.projects)
    (hq : d.yard.tree.canonical file = .ok q)
    (hlock : q.components = p.directory.components ++ [.name Path.lockName]) :
    (d.Hears file → d.changed file = d.send (.changed file)) ∧
    (¬ d.Hears file → d.changed file = (d, none)) ∧
    ∀ given m, d.yard.tree.canonical given = .ok m → m.components = p.directory.components ++ [.name "Cargo.toml"] →
      given.fileName? = some "Cargo.toml" → d.changed given = d.send (.changed given) := by
  refine ⟨fun hhears => ?_, fun hnot => ?_, fun given m hgiven hmanifest hname => ?_⟩
  · by_cases hname : file.fileName? = some Path.manifestName.text
    · exact changed_of_matters (matters_of_manifest hp hq (startsWith_of_components hlock) hname)
    · exact changed_of_matters ((matters_eq_true_iff hm hname).2 hhears)
  · have hname : file.fileName? ≠ some Path.manifestName.text := fun h => hnot (.inl h)
    exact if_neg fun h => hnot ((matters_eq_true_iff hm hname).1 h)
  · exact changed_of_matters (matters_of_manifest hp hgiven (startsWith_of_components hmanifest) hname)

/-! An attached project, and a link to its directory. -/

def besideLink : FileTree :=
  ⟨[(["app"], .directory), (["app", "Cargo.toml"], .file []), (["app", "Cargo.lock"], .file []),
    (["link"], .link "/app")], []⟩

theorem isTree_besideLink : besideLink.IsTree :=
  ⟨by decide, by decide, by decide⟩

theorem canonical_besideLink (file : Path) (name : String)
    (h : file.text.toList.contains '\x00' = false ∧ file.isEmpty = false ∧ besideLink.start file = [] ∧
      file.segments = ["", "link", name] ∧ besideLink.entry? ["app", name] = some (.file []) ∧
      FileTree.canAsk ["app", name] = true) :
    besideLink.canonical file = .ok (Location.toPath ["app", name]) := by
  obtain ⟨hnul, hempty, hstart, hsegments, he, hask⟩ := h
  have hsize : ¬ 255 < "app".utf8ByteSize ∧ ¬ 255 < "link".utf8ByteSize := by decide
  have hasked : FileTree.canAsk ["link"] = true ∧ FileTree.canAsk ["app"] = true := by decide
  have htarget : Path.isAbsolute ⟨"/app"⟩ = true ∧ Path.segments ⟨"/app"⟩ = ["", "app"] := by decide
  have hbelow : besideLink.walk FileTree.canAsk 39 ["app"] [name] = .ok ["app", name] := by
    refine FileTree.walk_names isTree_besideLink ["app"] he (fun _ => nofun) ?_
    rintro m - ⟨rest, hrest⟩
    exact FileTree.canAsk_of_append (l := "app" :: m) (m := rest) (by rwa [List.cons_append, hrest])
  have hresolve : besideLink.resolve file = .ok ["app", name] := by
    rw [FileTree.resolve, hnul, hempty, hstart, hsegments, ← hbelow]
    simp [FileTree.walk, FileTree.isName, FileTree.entry?, FileTree.at?, FileTree.nameLimit, FileTree.linkLimit,
      besideLink, List.lookup_cons, hsize, hasked, htarget]
  rw [FileTree.canonical, hresolve]
  simp [bind, Except.bind, he]

/-- Under the name of the link the manifest is heard and the lock file is passed over. -/
theorem changed_of_lock_besideLink :
    let s := Yard.start besideLink (Yard.tools 0 (.error (.unreadable "cargo" "")))
    let d := (new (s.apply (s.registry.attach ⟨"/app/Cargo.toml"⟩)) 20).start
    besideLink.canonical ⟨"/link/Cargo.lock"⟩ = .ok ⟨"/app/Cargo.lock"⟩ ∧
      d.changed ⟨"/link/Cargo.lock"⟩ = (d, none) ∧
      d.changed ⟨"/link/Cargo.toml"⟩ = d.send (.changed ⟨"/link/Cargo.toml"⟩) := by
  intro s d
  have hprojects : d.yard.registry.projects = [.new ⟨"/app/Cargo.toml"⟩] := by decide
  have hmanifests : d.yard.registry.manifests = [⟨"/app/Cargo.toml"⟩] := by decide
  have hlock : besideLink.canonical ⟨"/link/Cargo.lock"⟩ = .ok ⟨"/app/Cargo.lock"⟩ :=
    canonical_besideLink _ "Cargo.lock" (by decide)
  have hmanifest : besideLink.canonical ⟨"/link/Cargo.toml"⟩ = .ok ⟨"/app/Cargo.toml"⟩ :=
    canonical_besideLink _ "Cargo.toml" (by decide)
  have hcanonical : ∀ m ∈ d.yard.registry.manifests, m.IsCanonical := by
    intro m hm
    rw [hmanifests, List.mem_singleton] at hm
    rw [hm]
    exact ⟨besideLink, _, isTree_besideLink, hmanifest⟩
  have hnot : ¬ d.Hears ⟨"/link/Cargo.lock"⟩ := by
    rw [Hears, hmanifests]
    decide
  obtain ⟨-, hpassed, hheard⟩ := changed_of_lock (p := .new ⟨"/app/Cargo.toml"⟩) hcanonical (by rw [hprojects]; simp)
    hlock (by decide)
  exact ⟨hlock, hpassed hnot, hheard _ _ hmanifest (by decide) (by decide)⟩

end Debouncer

end CrateYard
