import GopherMcp.Config.IncludedFiles

/-!
# The bounds of inclusion

However files include one another, loading them ends, and none is loaded from within itself: on the way to a file the
real paths differ, and there are finitely many. A chain of named files is no longer than it may be. A chain with a
directory in it, and the files of an absolute path that begins with the text of a root, are within bounds exactly if
every step is that leads there.
-/

namespace GopherMcp

open Logged (ret fail emit andThen relabel recover forEach Meets Refines)

namespace FileConfigSource

variable (fs : FileSystem) (options : Options)

/-! ### What is promised -/

def InOrBelow (root file : Bytes) : Prop :=
  file = root ∨ (if root.getLast? = some kSlash then root else root ++ [kSlash]) <+: file

/-- What a path denotes lies in or below one of the allowed roots. -/
def InRoots (path : Bytes) : Prop :=
  ∃ root ∈ options.allowedIncludeRoots, InOrBelow (fs.canonical root) (fs.canonical path)

/-- The files on the way to a load, as what they denote. -/
def denoted (chain : List Inclusion) : List Bytes := chain.map fun inclusion => fs.canonical inclusion.path

def NotAgain (load : Load) : Prop := (fs.canonical load.start :: denoted fs load.chain).Nodup

/-- The way to a load stays within bounds. -/
structure StaysWithin (load : Load) : Prop where
  again : NotAgain fs load
  depth : load.chain.length ≤ options.maxIncludeDepth.toInt.toNat
  rooted : ∀ inclusion ∈ load.chain, isAbsolute inclusion.named = true → InRoots fs options inclusion.path

/-- By its text a path is under one of the allowed roots. -/
def BeginsWithRoot (path : Bytes) : Prop := ∃ root ∈ options.allowedIncludeRoots, root <+: path

/-- A step from a file that so many inclusions led to. Through a directory, or behind one, it is taken only while there
are fewer than there may be; and where an absolute path begins with the text of a root, what is loaded lies there. -/
structure StepMeets (before : List Inclusion) (next : Inclusion) : Prop where
  depth : (∃ inclusion ∈ before ++ [next], inclusion.kind = .directory) →
    before.length < options.maxIncludeDepth.toInt.toNat
  rooted : isAbsolute next.named = true → BeginsWithRoot options next.named → InRoots fs options next.path

/-- Every step on the way to a load. -/
def StepsMeet (load : Load) : Prop :=
  ∀ before next after, load.chain = before ++ next :: after → StepMeets fs options before next

/-! ### What is always so -/

def isInclude (inclusion : Inclusion) : Bool := inclusion.kind == .file

/-- What is loaded from within a context: files that are not being loaded, each once on its way, no more named files
than there may be, and no absolute path without the text of a root. -/
structure Follows (context : ParseContext) (chain : List Inclusion) : Prop where
  apart : (denoted fs chain).Nodup
  fresh : ∀ file ∈ denoted fs chain, file ∉ context.processedFiles
  counted : chain.countP isInclude = 0 ∨
    (context.includeDepth : Int) + chain.countP isInclude ≤ options.maxIncludeDepth.toInt
  allowed : ∀ inclusion ∈ chain, isAbsolute inclusion.named = true → BeginsWithRoot options inclusion.named

/-- How many files are not being loaded. -/
def remaining (processedFiles : List Bytes) : Nat := fs.files.countP fun file => !processedFiles.contains file

variable {fs options} {parse : Bytes → Bytes → Except Bytes JsonValue}
variable {load : Bytes → ParseContext → Loading (JsonValue × ParseContext)} {context : ParseContext}
variable {processed : List Bytes} {inclusion : Inclusion} {chain : List Inclusion} {path : Bytes}

theorem remaining_le {more : List Bytes} (h : processed ⊆ more) : remaining fs more ≤ remaining fs processed := by
  apply List.countP_mono_left
  intro file hfile hnot
  rw [Bool.not_eq_true', ← Bool.not_eq_true, List.contains_iff_mem] at hnot ⊢
  exact fun hmem => hnot (h hmem)

theorem remaining_cons_lt {key : Bytes} (hfile : key ∈ fs.files) (hkey : key ∉ processed) :
    remaining fs (key :: processed) < remaining fs processed := by
  have hsplit := List.append_of_mem hfile
  obtain ⟨before, after, hfiles⟩ := hsplit
  have hle (files : List Bytes) : (files.countP fun file => !(key :: processed).contains file) ≤
      files.countP fun file => !processed.contains file := by
    apply List.countP_mono_left
    intro file _ hnot
    rw [Bool.not_eq_true', ← Bool.not_eq_true, List.contains_iff_mem] at hnot ⊢
    exact fun hmem => hnot (List.mem_cons_of_mem _ hmem)
  unfold remaining
  rw [hfiles, List.countP_append, List.countP_append, List.countP_cons_of_neg (by simp),
    List.countP_cons_of_pos (by simpa using hkey)]
  have hbefore := hle before
  have hafter := hle after
  omega

theorem follows_nil (context : ParseContext) : Follows fs options context [] :=
  ⟨List.nodup_nil, fun _ h => absurd h List.not_mem_nil, Or.inl rfl, fun _ h => absurd h List.not_mem_nil⟩

/-- What follows from within an included file follows from the file that includes it. -/
theorem Follows.cons {inner outer : ParseContext} {baseDir : Bytes} (hsub : outer.processedFiles ⊆ processed)
    (hkey : fs.canonical inclusion.path ∉ processed)
    (hallowed : isAbsolute inclusion.named = true → BeginsWithRoot options inclusion.named)
    (hdepth : if isInclude inclusion then inner.includeDepth = outer.includeDepth + 1 ∧
        (inner.includeDepth : Int) ≤ options.maxIncludeDepth.toInt else inner.includeDepth = outer.includeDepth)
    (h : Follows fs options
      { inner with baseDir := baseDir, processedFiles := fs.canonical inclusion.path :: processed } chain) :
    Follows fs options outer (inclusion :: chain) where
  apart := by
    unfold denoted
    rw [List.map_cons, List.nodup_cons]
    exact ⟨fun hmem => h.fresh _ hmem List.mem_cons_self, h.apart⟩
  fresh := by
    intro file hfile hprocessed
    unfold denoted at hfile
    rw [List.map_cons, List.mem_cons] at hfile
    obtain rfl | hmem := hfile
    · exact hkey (hsub hprocessed)
    · exact h.fresh file hmem (List.mem_cons_of_mem _ (hsub hprocessed))
  counted := by
    have hcounted := h.counted
    dsimp only at hcounted
    rw [List.countP_cons]
    split_ifs at hdepth ⊢ with hkind
    · right
      omega
    · rw [hdepth] at hcounted
      exact hcounted
  allowed := by
    rw [List.forall_mem_cons]
    exact ⟨hallowed, h.allowed⟩

theorem resolveIncludePath_ok {named baseDir : Bytes}
    (hroots : options.allowedIncludeRoots ≠ []) (h : resolveIncludePath fs options named baseDir = .ok path) :
    fs.canonical path = path ∧ (isAbsolute named = true → BeginsWithRoot options named) := by
  unfold resolveIncludePath at h
  split_ifs at h with habsolute hrefused
  · obtain rfl := Except.ok.inj h
    refine ⟨fs.canonical_canonical _, fun _ => ?_⟩
    rw [Bool.and_eq_true, not_and, Bool.not_eq_true', Bool.not_eq_true', Bool.not_eq_false] at hrefused
    have hany := hrefused (by simpa using hroots)
    rw [List.any_eq_true] at hany
    obtain ⟨root, hroot, hprefix⟩ := hany
    exact ⟨root, hroot, List.isPrefixOf_iff_prefix.mp hprefix⟩
  · obtain rfl := Except.ok.inj h
    exact ⟨fs.canonical_canonical _, fun h => absurd h habsolute⟩

theorem content_of_readContent {content : Bytes} (h : readContent fs options path = .ok content) :
    (fs.content path).isSome = true := by
  unfold readContent at h
  cases hsize : fs.size path with
  | none =>
      rw [hsize] at h
      cases h
  | some size =>
      rw [hsize] at h
      dsimp only at h
      split_ifs at h
      cases hcontent : fs.content path with
      | none =>
          rw [hcontent] at h
          cases h
      | some found => rfl

/-! ### What every walker keeps -/

/-- A context in which at least the same files are being loaded, as deep. -/
def Keeps (context later : ParseContext) : Prop :=
  context.processedFiles ⊆ later.processedFiles ∧ later.includeDepth = context.includeDepth

theorem Follows.of_keeps {later : ParseContext} (hkeeps : Keeps context later) (h : Follows fs options later chain) :
    Follows fs options context chain :=
  ⟨h.apart, fun file hfile hprocessed => h.fresh file hfile (hkeeps.1 hprocessed), hkeeps.2 ▸ h.counted, h.allowed⟩

/-- Loading a file that is not being loaded goes as it should, wherever that is from within the context. -/
def LoadsWithin (fs : FileSystem) (options : Options) (load : Bytes → ParseContext → Loading (JsonValue × ParseContext))
    (outer : ParseContext) : Prop :=
  ∀ path processed (context : ParseContext), outer.processedFiles ⊆ processed → fs.canonical path ∉ processed →
    context.processedFiles = fs.canonical path :: processed →
    Meets (Follows fs options context) (fun loaded => Keeps context loaded.2) (load path context)

theorem LoadsWithin.of_keeps {later : ParseContext} (hkeeps : Keeps context later)
    (h : LoadsWithin fs options load context) : LoadsWithin fs options load later :=
  fun path processed inner hsub hfresh => h path processed inner (List.Subset.trans hkeeps.1 hsub) hfresh

theorem meets_includeFile {outer inner : ParseContext} {key : Bytes} {progress : JsonValue × List Bytes}
    (hload : LoadsWithin fs options load outer) (hkey : key = fs.canonical inclusion.path)
    (hallowed : isAbsolute inclusion.named = true → BeginsWithRoot options inclusion.named)
    (hdepth : if isInclude inclusion then inner.includeDepth = outer.includeDepth + 1 ∧
        (inner.includeDepth : Int) ≤ options.maxIncludeDepth.toInt else inner.includeDepth = outer.includeDepth)
    (hprogress : outer.processedFiles ⊆ progress.2) :
    Meets (Follows fs options outer) (fun next => outer.processedFiles ⊆ next.2)
      (includeFile load inner inclusion key progress) := by
  subst hkey
  unfold includeFile
  split_ifs with hcontains
  · exact Logged.meets_ret hprogress
  · rw [List.contains_iff_mem] at hcontains
    have hloaded := hload inclusion.path progress.2
      { inner with baseDir := parentPath inclusion.path, processedFiles := fs.canonical inclusion.path :: progress.2 }
      hprogress hcontains rfl
    refine Meets.andThen (hloaded.relabel fun chain hchain => ?_) fun loaded _ => Logged.meets_ret ?_
    · exact Follows.cons hprogress hcontains hallowed hdepth hchain
    · exact List.Subset.trans hprogress (List.subset_cons_self _ _)

theorem meets_processIncludes (hroots : options.allowedIncludeRoots ≠ []) (hload : LoadsWithin fs options load context)
    (config : JsonValue) :
    Meets (Follows fs options context) (fun loaded => Keeps context loaded.2)
      (processIncludes fs options load config context) := by
  unfold processIncludes
  split_ifs with hdeep
  · exact Logged.meets_fail _
  · refine Meets.andThen (I := fun progress => context.processedFiles ⊆ progress.2) ?_ fun progress hprogress =>
      Logged.meets_ret ⟨hprogress, rfl⟩
    refine Logged.meets_forEach (List.Subset.refl _) fun named _ progress hprogress => ?_
    unfold includeNamed
    cases hresolve : resolveIncludePath fs options named context.baseDir with
    | error error => exact Logged.meets_fail _
    | ok path =>
        obtain ⟨hcanonical, hallowed⟩ := resolveIncludePath_ok hroots hresolve
        refine meets_includeFile hload hcanonical.symm hallowed ?_ hprogress
        rw [if_pos (show isInclude ⟨.file, named, path⟩ = true from rfl)]
        refine ⟨rfl, ?_⟩
        push_cast
        omega

theorem meets_processIncludeDirectory (hroots : options.allowedIncludeRoots ≠ [])
    (hload : LoadsWithin fs options load context) (config : JsonValue) :
    Meets (Follows fs options context) (fun loaded => Keeps context loaded.2)
      (processIncludeDirectory fs options load config context) := by
  unfold processIncludeDirectory
  cases hnamed : config.stringAt (ascii "include_dir") with
  | none => exact Logged.meets_fail _
  | some named =>
      dsimp only
      cases hresolve : resolveIncludePath fs options named context.baseDir with
      | error error => exact Logged.meets_fail _
      | ok dir =>
          obtain ⟨-, hallowed⟩ := resolveIncludePath_ok hroots hresolve
          refine Meets.andThen (I := fun progress => context.processedFiles ⊆ progress.2) ?_ fun progress hprogress =>
            Logged.meets_ret ⟨hprogress, rfl⟩
          refine Logged.meets_forEach (List.Subset.refl _) fun path _ progress hprogress => ?_
          exact meets_includeFile hload rfl hallowed rfl hprogress

theorem meets_processConfig (hroots : options.allowedIncludeRoots ≠ []) (hload : LoadsWithin fs options load context)
    (config : JsonValue) :
    Meets (Follows fs options context) (fun loaded => Keeps context loaded.2)
      (processConfig fs options load config context) := by
  unfold processConfig
  refine Meets.andThen (I := fun loaded => Keeps context loaded.2) ?_ fun included hkeeps => ?_
  · split_ifs
    · exact meets_processIncludes hroots hload config
    · exact Logged.meets_ret ⟨List.Subset.refl _, rfl⟩
  · split_ifs
    · refine (meets_processIncludeDirectory hroots (hload.of_keeps hkeeps) included.1).mono ?_ ?_
      · exact fun chain hchain => hchain.of_keeps hkeeps
      · exact fun loaded hloaded => ⟨List.Subset.trans hkeeps.1 hloaded.1, hloaded.2.trans hkeeps.2⟩
    · exact Logged.meets_ret hkeeps

/-- Loading a file ends, as often as there are files that are not being loaded. The induction is on how deep files may
be in files: each level takes one of those files away. -/
theorem meets_loadFile (hroots : options.allowedIncludeRoots ≠ []) (fuel : Nat) (path : Bytes) (context : ParseContext)
    (hfuel : (fs.content path).isSome = true → remaining fs context.processedFiles + 1 ≤ fuel) :
    Meets (Follows fs options context) (fun loaded => Keeps context loaded.2)
      (loadFile fs options parse (fuel + 1) path context) := by
  induction fuel generalizing path context with
  | zero =>
      unfold loadFile loadStep
      cases hread : readContent fs options path with
      | error error => exact Logged.meets_fail _
      | ok content => exact absurd (hfuel (content_of_readContent hread)) (by omega)
  | succ fuel ih =>
      unfold loadFile loadStep
      cases hread : readContent fs options path with
      | error error => exact Logged.meets_fail _
      | ok content =>
          have hlevel := hfuel (content_of_readContent hread)
          refine Meets.emit ?_ (follows_nil context)
          cases parse path content with
          | error error => exact Logged.meets_fail _
          | ok config =>
              refine meets_processConfig hroots ?_ config
              rintro inner processed context' hsub hfresh hcontext
              refine ih inner context' fun hcontent => ?_
              have hlt := remaining_cons_lt (fs.canonical_mem_files inner hcontent) hfresh
              have hle := @remaining_le fs _ _ hsub
              rw [hcontext]
              omega

/-! ### More levels -/

variable {other : Bytes → ParseContext → Loading (JsonValue × ParseContext)}

theorem refines_includeFile (h : ∀ path context, Refines (load path context) (other path context))
    (context : ParseContext) (inclusion : Inclusion) (key : Bytes) (progress : JsonValue × List Bytes) :
    Refines (includeFile load context inclusion key progress) (includeFile other context inclusion key progress) := by
  unfold includeFile
  split_ifs
  · exact Refines.refl _
  · exact ((h _ _).relabel _).andThen fun _ => Refines.refl _

theorem refines_processIncludes (h : ∀ path context, Refines (load path context) (other path context))
    (config : JsonValue) (context : ParseContext) :
    Refines (processIncludes fs options load config context) (processIncludes fs options other config context) := by
  unfold processIncludes
  split_ifs
  · exact Refines.refl _
  · refine Refines.andThen (Logged.refines_forEach (fun named progress => ?_) _ _) fun _ => Refines.refl _
    unfold includeNamed
    cases resolveIncludePath fs options named context.baseDir with
    | error error => exact Refines.refl _
    | ok path => exact refines_includeFile h _ _ _ _

theorem refines_processIncludeDirectory (h : ∀ path context, Refines (load path context) (other path context))
    (config : JsonValue) (context : ParseContext) :
    Refines (processIncludeDirectory fs options load config context)
      (processIncludeDirectory fs options other config context) := by
  unfold processIncludeDirectory
  cases config.stringAt (ascii "include_dir") with
  | none => exact Refines.refl _
  | some named =>
      dsimp only
      cases resolveIncludePath fs options named context.baseDir with
      | error error => exact Refines.refl _
      | ok dir =>
          refine Refines.andThen (Logged.refines_forEach (fun path progress => ?_) _ _) fun _ => Refines.refl _
          exact refines_includeFile h _ _ _ _

theorem refines_loadStep (h : ∀ path context, Refines (load path context) (other path context)) (path : Bytes)
    (context : ParseContext) :
    Refines (loadStep fs options parse load path context) (loadStep fs options parse other path context) := by
  unfold loadStep
  cases readContent fs options path with
  | error error => exact Refines.refl _
  | ok content =>
      refine Refines.emit ?_ _
      cases parse path content with
      | error error => exact Refines.refl _
      | ok config =>
          refine Refines.andThen ?_ fun included => ?_
          · split_ifs
            · exact refines_processIncludes h config context
            · exact Refines.refl _
          · split_ifs
            · exact refines_processIncludeDirectory h included.1 included.2
            · exact Refines.refl _

theorem refines_loadFile (fuel : Nat) (path : Bytes) (context : ParseContext) :
    Refines (loadFile fs options parse fuel path context) (loadFile fs options parse (fuel + 1) path context) := by
  induction fuel generalizing path context with
  | zero =>
      rintro run ⟨⟩
  | succ fuel ih => exact refines_loadStep ih path context

theorem refines_loadConfiguration (fuel : Nat) (configPath : Bytes) :
    Refines (loadConfiguration fs options parse fuel configPath)
      (loadConfiguration fs options parse (fuel + 1) configPath) := by
  unfold loadConfiguration
  split_ifs
  · exact Refines.refl _
  · refine ((refines_loadFile fuel _ _).relabel _).andThen fun loaded => ?_
    refine Refines.andThen (Logged.refines_forEach (fun path progress => ?_) _ _) fun _ => Refines.refl _
    unfold applyOverlay
    split_ifs
    · exact Refines.refl _
    · exact (((refines_loadFile fuel _ _).relabel _).andThen fun _ => Refines.refl _).recover _

/-! ### Whole configurations -/

variable (fs options) in
/-- What is so of every load. -/
structure Always (load : Load) : Prop where
  again : NotAgain fs load
  counted : (load.chain.countP isInclude : Int) ≤ max 0 options.maxIncludeDepth.toInt
  allowed : ∀ inclusion ∈ load.chain, isAbsolute inclusion.named = true → BeginsWithRoot options inclusion.named

theorem always_of_follows {start : Bytes} (hdepth : context.includeDepth = 0)
    (hstart : fs.canonical start ∈ context.processedFiles) (h : Follows fs options context chain) :
    Always fs options ⟨start, chain⟩ where
  again := List.nodup_cons.mpr ⟨fun hmem => h.fresh _ hmem hstart, h.apart⟩
  counted := by
    have hcounted := h.counted
    rw [hdepth] at hcounted
    dsimp only
    omega
  allowed := h.allowed

theorem meets_applyOverlay (hroots : options.allowedIncludeRoots ≠ []) {fuel : Nat} (hfuel : fs.files.length + 1 ≤ fuel)
    (hdepth : context.includeDepth = 0) (path : Bytes) (progress : JsonValue × List Bytes) :
    Meets (Always fs options) (fun _ => True) (applyOverlay fs options parse (fuel + 1) context path progress) := by
  unfold applyOverlay
  split_ifs with hcontains
  · exact Logged.meets_ret trivial
  · refine Meets.recover (Meets.andThen (Meets.relabel (meets_loadFile hroots fuel path _ fun _ => ?_)
      fun chain hchain => ?_) fun _ _ => Logged.meets_ret trivial) trivial
    · exact Nat.le_trans (Nat.add_le_add_right List.countP_le_length 1) hfuel
    · exact @always_of_follows _ _ ⟨parentPath path, fs.canonical path :: progress.2, context.includeDepth⟩ _ path hdepth
        List.mem_cons_self hchain

theorem meets_loadConfiguration (hroots : options.allowedIncludeRoots ≠ []) (configPath : Bytes) :
    Meets (Always fs options) (fun _ => True)
      (loadConfiguration fs options parse (fs.files.length + 2) configPath) := by
  unfold loadConfiguration
  split_ifs
  · exact Logged.meets_ret trivial
  · refine Meets.andThen (Meets.relabel (meets_loadFile hroots (fs.files.length + 1) configPath _ fun _ => ?_)
      fun chain hchain => ?_) fun loaded hkeeps => ?_
    · exact Nat.add_le_add_right List.countP_le_length 1
    · exact always_of_follows rfl List.mem_cons_self hchain
    · refine Meets.andThen (I := fun _ => True) (Logged.meets_forEach trivial fun path _ progress _ => ?_) fun _ _ => Logged.meets_ret trivial
      exact meets_applyOverlay hroots le_rfl hkeeps.2 path progress

/-- A way without a directory is as long as its named files are many. -/
theorem countP_isInclude_of_not_exists (h : ¬ ∃ inclusion ∈ chain, inclusion.kind = .directory) :
    chain.countP isInclude = chain.length := by
  rw [List.countP_eq_length]
  intro inclusion hmem
  unfold isInclude
  cases hkind : inclusion.kind with
  | file => rfl
  | directory => exact absurd ⟨inclusion, hmem, hkind⟩ h

/-- A load stays within bounds exactly if every step on the way to it does. -/
theorem staysWithin_iff {load : Load} (always : Always fs options load) :
    StaysWithin fs options load ↔ StepsMeet fs options load := by
  constructor
  · intro hwithin before next after hchain
    have hlength := hwithin.depth
    rw [hchain, List.length_append, List.length_cons] at hlength
    refine ⟨fun _ => by omega, fun habsolute _ => hwithin.rooted next ?_ habsolute⟩
    rw [hchain]
    exact List.mem_append_right _ List.mem_cons_self
  · intro hsteps
    refine ⟨always.again, ?_, fun inclusion hmem habsolute => ?_⟩
    · by_cases hdirectory : ∃ inclusion ∈ load.chain, inclusion.kind = .directory
      · obtain hnil | ⟨before, last, hchain⟩ := List.eq_nil_or_concat' load.chain
        · rw [hnil]
          exact Nat.zero_le _
        · rw [hchain] at hdirectory
          have hdepth := (hsteps before last [] hchain).depth hdirectory
          rw [hchain, List.length_append, List.length_singleton]
          omega
      · have hcounted := always.counted
        rw [countP_isInclude_of_not_exists hdirectory] at hcounted
        omega
    · obtain ⟨before, after, hchain⟩ := List.append_of_mem hmem
      exact (hsteps before inclusion after hchain).rooted habsolute (always.allowed inclusion hmem habsolute)

/-- **Includes within bounds.** However files include one another, loading a configuration ends, in one way, and loads
no file from within itself; and each load stays within bounds exactly if every step on the way to it does. -/
theorem loadConfiguration_iff (hroots : options.allowedIncludeRoots ≠ []) (configPath : Bytes) :
    ∃ run, (∀ fuel, fs.files.length + 2 ≤ fuel → loadConfiguration fs options parse fuel configPath = some run) ∧
      (∀ load ∈ run.log, NotAgain fs load) ∧
      ∀ load ∈ run.log, (StaysWithin fs options load ↔ StepsMeet fs options load) := by
  obtain ⟨run, hrun, hlog, -⟩ := @meets_loadConfiguration fs options parse hroots configPath
  refine ⟨run, fun fuel hfuel => ?_, fun load hload => (hlog load hload).again,
    fun load hload => staysWithin_iff (hlog load hload)⟩
  induction fuel, hfuel using Nat.le_induction with
  | base => exact hrun
  | succ fuel _ ih => exact refines_loadConfiguration fuel configPath run ih

/-- Directories `/0`, `/1` and so on, with a file in each that includes the next directory. -/
def nestedFile (number : UInt8) : Bytes := [kSlash, 48 + number] ++ ascii "/x.json"

def nestedDirectories : FileSystem where
  canonical path := path
  size path := if ((List.range 10).map fun k => nestedFile k.toUInt8).contains path then some 32 else none
  content path := if ((List.range 10).map fun k => nestedFile k.toUInt8).contains path then some [] else none
  isDirectory path := path.length == 2
  entries _ := [ascii ".", ascii "..", ascii "x.json"]
  files := (List.range 10).map fun k => nestedFile k.toUInt8
  canonical_canonical _ := rfl
  canonical_mem_files path h := by
    split_ifs at h with hfile
    · exact List.contains_iff_mem.mp hfile
    · cases h

def nextDirectory (path _content : Bytes) : Except Bytes JsonValue :=
  .ok (.object [(ascii "include_dir", .string [kSlash, path.getD 1 0 + 1])])

/-- A file beside the allowed root, and one that includes it. -/
def siblingRoot : FileSystem where
  canonical path := path
  size path := if [ascii "/c/a.json", ascii "/etc/conf-other/b.json"].contains path then some 32 else none
  content path := if [ascii "/c/a.json", ascii "/etc/conf-other/b.json"].contains path then some [] else none
  isDirectory _ := false
  entries _ := []
  files := [ascii "/c/a.json", ascii "/etc/conf-other/b.json"]
  canonical_canonical _ := rfl
  canonical_mem_files path h := by
    split_ifs at h with hfile
    · exact List.contains_iff_mem.mp hfile
    · cases h

def includesSibling (path _content : Bytes) : Except Bytes JsonValue :=
  if path == ascii "/c/a.json" then
    .ok (.object [(ascii "include", .string (ascii "/etc/conf-other/b.json"))])
  else .ok .emptyObject

def defaultOptions (roots : List Bytes) : Options := ⟨roots, 20 * 1024 * 1024, 8⟩

theorem loadConfiguration_iff_nested :
    ∃ run, (∀ fuel, nestedDirectories.files.length + 2 ≤ fuel →
        loadConfiguration nestedDirectories (defaultOptions [ascii "/"]) nextDirectory fuel (nestedFile 0) = some run) ∧
      (∀ load ∈ run.log, NotAgain nestedDirectories load) ∧
      ∀ load ∈ run.log, (StaysWithin nestedDirectories (defaultOptions [ascii "/"]) load ↔
        StepsMeet nestedDirectories (defaultOptions [ascii "/"]) load) :=
  @loadConfiguration_iff nestedDirectories (defaultOptions [ascii "/"]) nextDirectory (by decide) (nestedFile 0)

/-- Nine directories, one in the other, are followed where eight inclusions are allowed; and a file is loaded from a
directory whose name begins with that of the root. -/
theorem not_staysWithin :
    (¬ ∀ run, loadConfiguration nestedDirectories (defaultOptions [ascii "/"]) nextDirectory 12 (nestedFile 0) =
        some run → ∀ load ∈ run.log, StaysWithin nestedDirectories (defaultOptions [ascii "/"]) load) ∧
      ¬ ∀ run, loadConfiguration siblingRoot (defaultOptions [ascii "/etc/conf"]) includesSibling 4
          (ascii "/c/a.json") = some run →
        ∀ load ∈ run.log, StaysWithin siblingRoot (defaultOptions [ascii "/etc/conf"]) load := by
  constructor
  · have hlengths : (loadConfiguration nestedDirectories (defaultOptions [ascii "/"]) nextDirectory 12
        (nestedFile 0)).map (fun run => run.log.map fun load => load.chain.length) =
        some [0, 1, 2, 3, 4, 5, 6, 7, 8, 9] := by decide +kernel
    obtain ⟨run, hrun, hlog⟩ := Option.map_eq_some_iff.mp hlengths
    intro h
    have hnine : 9 ∈ run.log.map fun load => load.chain.length := by
      rw [hlog]
      decide
    obtain ⟨load, hload, hlength⟩ := List.mem_map.mp hnine
    have hdepth := (h run hrun load hload).depth
    rw [hlength] at hdepth
    exact absurd hdepth (by decide)
  · have hpaths : (loadConfiguration siblingRoot (defaultOptions [ascii "/etc/conf"]) includesSibling 4
        (ascii "/c/a.json")).map (fun run => run.log.map fun load =>
          load.chain.map fun inclusion => (inclusion.named, inclusion.path)) =
        some [[], [(ascii "/etc/conf-other/b.json", ascii "/etc/conf-other/b.json")]] := by decide +kernel
    obtain ⟨run, hrun, hlog⟩ := Option.map_eq_some_iff.mp hpaths
    intro h
    have hsibling : [(ascii "/etc/conf-other/b.json", ascii "/etc/conf-other/b.json")] ∈
        run.log.map fun load => load.chain.map fun inclusion => (inclusion.named, inclusion.path) := by
      rw [hlog]
      exact List.mem_cons_of_mem _ List.mem_cons_self
    obtain ⟨load, hload, hchain⟩ := List.mem_map.mp hsibling
    obtain ⟨inclusion, hinclusion, hnamed⟩ := List.mem_map.mp (hchain ▸ List.mem_cons_self)
    obtain ⟨hnamed, hpath⟩ := Prod.mk.inj hnamed
    obtain ⟨root, hroot, hbelow⟩ := (h run hrun load hload).rooted inclusion hinclusion (by rw [hnamed]; decide)
    obtain rfl := List.mem_singleton.mp hroot
    rw [hpath] at hbelow
    revert hbelow
    unfold InOrBelow
    decide

end FileConfigSource

end GopherMcp
