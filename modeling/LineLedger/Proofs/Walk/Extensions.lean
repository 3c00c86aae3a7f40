import LineLedger.Proofs.Language.Spelling
import LineLedger.Proofs.Walk.InSight

set_option autoImplicit false

namespace LineLedger.Disk

def listedAs? (path : Path) : Option String := (extensionOf? path).map ("." ++ ·)

section Paths

variable {exts : List String} {path : Path} {ext : String}

theorem accepts_iff : accepts exts path = true ↔
    exts = [] ∨ ∃ ext ∈ exts, extensionOf? path = some (Extension.normalize ext) := by
  cases exts with
  | nil => simp [accepts]
  | cons first rest =>
      have listed : (∃ ext, extensionOf? path = some ext ∧
          ext ∈ (first :: rest).map Extension.normalize) ↔
          ∃ ext ∈ first :: rest, extensionOf? path = some (Extension.normalize ext) := by
        constructor
        · rintro ⟨normal, has, among⟩
          obtain ⟨ext, member, rfl⟩ := List.mem_map.1 among
          exact ⟨ext, member, has⟩
        · rintro ⟨ext, member, has⟩
          exact ⟨_, has, List.mem_map_of_mem member⟩
      rw [accepts, List.isEmpty_cons, Bool.false_or, Option.any_eq_true]
      simpa only [List.contains_iff_mem, reduceCtorEq, false_or] using listed

-- The extension of a path has no dots, so its dotted normal form is read as the normal form.
theorem listedAs?_eq_some_iff (listed : listedAs? path = some ext) (other : Path) :
    extensionOf? other = some (Extension.normalize ext) ↔ listedAs? other = some ext := by
  obtain ⟨normal, has, rfl⟩ := Option.map_eq_some_iff.1 listed
  obtain ⟨spelled, own, rfl⟩ := Option.map_eq_some_iff.1 has
  have tight : Extension.IsTight spelled.toList :=
    Extension.isTight_of_free (Path.extension?_free own)
  rw [Extension.normalize_dotted tight, listedAs?]
  cases extensionOf? other with
  | none => simp
  | some normal => simp [String.append_right_inj]

-- Paths that are not in descending order are in order, since any two can be compared.
theorem not_before (p q : Path) : (!q.before p) = (compare p.route q.route).isLE := by
  have swapped : compare p.route q.route = (compare q.route p.route).swap :=
    Std.OrientedCmp.eq_swap
  rw [Path.before, swapped]
  cases compare q.route p.route <;> rfl

end Paths

section AnyWalk

variable [Walker] {d : Disk} {root : Path}

def taken (d : Disk) (root : Path) (exts : List String) : List Path :=
  ((d.regularFiles root).filter (accepts exts)).mergeSort fun p q => !q.before p

def found (d : Disk) (root : Path) : List String :=
  (Table.ofList (((d.regularFiles root).filterMap extensionOf?).map fun ext =>
    ("." ++ ext, ()))).keys

section Taken

variable {exts others : List String} {path : Path}

theorem mem_taken : path ∈ d.taken root exts ↔
    path ∈ d.regularFiles root ∧ accepts exts path = true := by
  rw [taken, List.mem_mergeSort, List.mem_filter]

theorem mem_taken_nil : path ∈ d.taken root [] ↔ path ∈ d.regularFiles root := by
  simp [mem_taken, accepts_iff]

theorem mem_taken_single {ext : String} : path ∈ d.taken root [ext] ↔
    path ∈ d.regularFiles root ∧ extensionOf? path = some (Extension.normalize ext) := by
  simp [mem_taken, accepts_iff]

theorem taken_congr (same : ∀ path, accepts exts path = true ↔ accepts others path = true) :
    d.taken root exts = d.taken root others := by
  have equal : accepts exts = accepts others := funext fun path => Bool.eq_iff_iff.2 (same path)
  rw [taken, taken, equal]

theorem taken_of_normal (same : exts.map Extension.normalize = others.map Extension.normalize) :
    d.taken root exts = d.taken root others := by
  have empty : exts.isEmpty = others.isEmpty := by
    have := congrArg List.length same
    cases exts <;> cases others <;> simp_all
  refine taken_congr fun path => ?_
  rw [accepts, accepts, same, empty]

theorem taken_ascending (once : (d.regularFiles root).Pairwise fun p q => ¬ p.Same q)
    (exts : List String) : (d.taken root exts).Pairwise fun p q => p.before q = true := by
  have sorted : (d.taken root exts).Pairwise fun p q => (!q.before p) = true := by
    refine List.pairwise_mergeSort (fun p q r first second => ?_) (fun p q => ?_) _
    · rw [not_before] at *
      exact Std.TransCmp.isLE_trans first second
    · have swapped : compare q.route p.route = (compare p.route q.route).swap :=
        Std.OrientedCmp.eq_swap
      rw [not_before, not_before, swapped]
      cases compare p.route q.route <;> rfl
  have apart : (d.taken root exts).Pairwise fun p q => ¬ p.Same q :=
    (once.sublist List.filter_sublist).perm (List.mergeSort_perm ..).symm
      fun apart same => apart same.symm
  refine (sorted.and apart).imp fun {p q} ⟨up, other⟩ => ?_
  rw [not_before] at up
  rw [Path.before, decide_eq_true_eq]
  cases order : compare p.route q.route with
  | lt => rfl
  | eq => exact absurd (Std.LawfulEqCmp.eq_of_compare order) other
  | gt => simp [order] at up

end Taken

section Found

variable {ext : String} {path : Path}

theorem mem_found : ext ∈ d.found root ↔
    ∃ path ∈ d.regularFiles root, listedAs? path = some ext := by
  rw [found, Table.mem_keys_ofList]
  simp only [List.map_map, List.mem_map, List.mem_filterMap, Function.comp_apply, listedAs?,
    Option.map_eq_some_iff]
  constructor
  · rintro ⟨normal, ⟨path, member, has⟩, named⟩
    exact ⟨path, member, normal, has, named⟩
  · rintro ⟨path, member, normal, has, named⟩
    exact ⟨normal, ⟨path, member, has⟩, named⟩

theorem discoverExtensions_eq (folder : d.requireFolder root = .ok ()) :
    d.discoverExtensions root = .ok (d.found root) := by
  rw [discoverExtensions, folder]
  rfl

theorem collectFiles_eq_taken (folder : d.requireFolder root = .ok ()) (exts : List String) :
    d.collectFiles root exts = .ok (d.taken root exts) := by
  rw [collectFiles, folder]
  rfl

theorem mem_taken_found (listed : ext ∈ d.found root) :
    path ∈ d.taken root [ext] ↔ path ∈ d.regularFiles root ∧ listedAs? path = some ext := by
  obtain ⟨first, -, named⟩ := mem_found.1 listed
  rw [mem_taken_single, listedAs?_eq_some_iff named]

theorem taken_loose (loose : ¬ Extension.IsTight ext.toList) : d.taken root [ext] = [] := by
  refine List.eq_nil_iff_forall_not_mem.2 fun path member => loose ?_
  obtain ⟨spelled, own, same⟩ := Option.map_eq_some_iff.1 (mem_taken_single.1 member).2
  rw [Extension.normalize, Extension.normalize, String.ofList_inj] at same
  exact (Extension.isTight_congr same).1 (Extension.isTight_of_free (Path.extension?_free own))

end Found

section Laws

structure Sorts (found : List String) (files : List String → List Path) : Prop where
  within : ∀ exts, ∀ path ∈ files exts, path ∈ files []
  once : ∀ path ∈ files [], path.extension? ≠ none → ∃! ext, ext ∈ found ∧ path ∈ files [ext]
  used : ∀ ext ∈ found, files [ext] ≠ []
  bare : ∀ path ∈ files [], path.extension? = none → ∀ ext, path ∉ files [ext]

structure Unites (files : List String → List Path) : Prop where
  union : ∀ exts, exts ≠ [] → ∀ path, path ∈ files exts ↔ ∃ ext ∈ exts, path ∈ files [ext]
  members : ∀ exts others, (∀ ext, ext ∈ exts ↔ ext ∈ others) → files exts = files others

-- Letter case has no say, and dots in front have none without a blank behind them. An extension
-- with such a blank is that of no file.
structure Respells (files : List String → List Path) : Prop where
  letters : ∀ exts others, List.Forall₂ Extension.Recased exts others → files exts = files others
  lowered : ∀ exts others,
    exts.map (fun ext => Text.lower ext.toList) = others.map (fun ext => Text.lower ext.toList) →
    files exts = files others
  dots : ∀ exts, (∀ ext ∈ exts, Extension.IsTight ext.toList) →
    files (exts.map Extension.withoutDots) = files exts
  loose : ∀ ext, ¬ Extension.IsTight ext.toList → files [ext] = []

theorem sorts_taken (d : Disk) (root : Path) : Sorts (d.found root) (d.taken root) where
  within exts path member := mem_taken_nil.2 (mem_taken.1 member).1
  once path member has := by
    have reached := mem_taken_nil.1 member
    obtain ⟨own, spelled⟩ := Option.ne_none_iff_exists'.1 has
    have listed : listedAs? path = some ("." ++ Extension.normalize own) := by
      rw [listedAs?, extensionOf?, spelled]
      rfl
    have among := mem_found.2 ⟨path, reached, listed⟩
    refine ⟨_, ⟨among, (mem_taken_found among).2 ⟨reached, listed⟩⟩, ?_⟩
    rintro ext ⟨other, also⟩
    have same := ((mem_taken_found other).1 also).2.symm.trans listed
    exact Option.some.inj same
  used ext listed := by
    obtain ⟨path, reached, named⟩ := mem_found.1 listed
    exact List.ne_nil_of_mem ((mem_taken_found listed).2 ⟨reached, named⟩)
  bare path _ unnamed ext member := by
    have has := (mem_taken_single.1 member).2
    rw [extensionOf?, unnamed] at has
    cases has

theorem unites_taken (d : Disk) (root : Path) : Unites (d.taken root) where
  union exts nonempty path := by
    simp only [mem_taken, accepts_iff, nonempty, false_or, List.cons_ne_nil, List.mem_singleton,
      exists_eq_left]
    constructor
    · rintro ⟨reached, ext, member, has⟩
      exact ⟨ext, member, reached, has⟩
    · rintro ⟨ext, member, reached, has⟩
      exact ⟨reached, ext, member, has⟩
  members exts others same := by
    have empty : exts = [] ↔ others = [] := by
      simp only [List.eq_nil_iff_forall_not_mem, same]
    exact taken_congr fun path => by simp only [accepts_iff, empty, same]

theorem respells_taken (d : Disk) (root : Path) : Respells (d.taken root) where
  letters exts others recased := by
    refine taken_of_normal ?_
    induction recased with
    | nil => rfl
    | cons here _ ih =>
        rw [List.map_cons, List.map_cons, ih, Extension.normalize_eq_of_lower here.lower_eq]
  lowered exts others same := by
    refine taken_of_normal ?_
    have normal : ∀ ext : String, Extension.normalize ext =
        String.ofList (Extension.normal (Text.lower ext.toList)) := fun ext => by
      rw [Extension.normal_lower, Extension.normalize]
    have reads := congrArg (List.map fun small => String.ofList (Extension.normal small)) same
    simpa only [List.map_map, Function.comp_def, ← normal] using reads
  dots exts tight := by
    refine taken_of_normal ?_
    rw [List.map_map]
    exact List.map_congr_left fun ext member => Extension.normalize_withoutDots (tight ext member)
  loose _ := taken_loose

end Laws

theorem collected_by_extension
    (once : (d.regularFiles root).Pairwise fun p q => ¬ p.Same q) :
    match d.requireFolder root with
    | .error failure =>
        d.discoverExtensions root = .error failure ∧
          ∀ exts, d.collectFiles root exts = .error failure
    | .ok () => ∃ found files, d.discoverExtensions root = .ok found ∧
        (∀ exts, d.collectFiles root exts = .ok (files exts)) ∧
        Sorts found files ∧ Unites files ∧ Respells files ∧
        ∀ exts, (files exts).Pairwise fun p q => p.before q = true := by
  cases required : d.requireFolder root with
  | error failure =>
      rw [discoverExtensions, required]
      exact ⟨rfl, fun exts => by rw [collectFiles, required]; rfl⟩
  | ok =>
      exact ⟨d.found root, d.taken root, discoverExtensions_eq required,
        collectFiles_eq_taken required, sorts_taken d root, unites_taken d root,
        respells_taken d root, taken_ascending once⟩

end AnyWalk

def sources : Disk :=
  ⟨⟨.ofList [(["Makefile"], .file (.text "") false), (["a.py"], .file (.text "") false),
    (["b.PY"], .file (.text "") false), (["x.aσ"], .file (.text "") false)],
    by decide +kernel⟩, [], ⟨""⟩⟩

theorem collected_by_extension_sources :
    let root : Path := ⟨"."⟩
    ((sources.regularFiles root).Pairwise fun p q => ¬ p.Same q) ∧
    sources.discoverExtensions root = .ok [".aσ", ".py"] ∧
    ∃ paths, sources.collectFiles root [".py"] = .ok paths ∧
      sources.collectFiles root ["PY", ".py"] = .ok paths ∧ paths ≠ [] ∧
      paths.Pairwise fun p q => p.before q = true := by
  intro root
  have required : sources.requireFolder root = .ok () := by decide +kernel
  have once := (walks_inSight.distinct sources root).routes
  have laws := collected_by_extension once
  rw [required] at laws
  obtain ⟨found, files, discovered, collected, sorts, unites, respells, ascending⟩ := laws
  have discovery : sources.discoverExtensions root = .ok [".aσ", ".py"] := by decide +kernel
  cases discovered.symm.trans discovery
  have small : files ["PY", ".py"] = files ["py", ".py"] :=
    respells.letters _ _ (.cons ⟨by decide +kernel, by decide, by decide⟩
      (.cons ⟨rfl, by decide, by decide⟩ .nil))
  have bare : files ["py", ".py"] = files [".py"] := by
    rw [← respells.dots ["py", ".py"] (by decide +kernel),
      ← respells.dots [".py"] (by decide +kernel)]
    refine unites.members _ _ fun ext => ?_
    simp [Extension.withoutDots, Extension.undotted]
  refine ⟨once, discovered, files [".py"], collected _, bare ▸ small ▸ collected _,
    sorts.used ".py" (by decide), ascending _⟩

theorem collected_by_spelling :
    let root : Path := ⟨"."⟩
    Extension.withoutDots ". py" = " py" ∧
    sources.collectFiles root [" py"] = .ok [⟨"./a.py"⟩, ⟨"./b.PY"⟩] ∧
    sources.collectFiles root [". py"] = .ok [] ∧
    "AΣ".toList.map Text.lowerChar = "aσ".toList.map Text.lowerChar ∧
    sources.collectFiles root ["aσ"] = .ok [⟨"./x.aσ"⟩] ∧
    sources.collectFiles root ["AΣ"] = .ok [] := by
  refine ⟨by decide +kernel, ?_, ?_, by decide +kernel, ?_, ?_⟩ <;>
    exact collectFiles_of_found (by decide +kernel) (by decide +kernel) (by decide +kernel)

end LineLedger.Disk
