import FlatSchema.Proofs.Load.Journal
import FlatSchema.Proofs.Load.Tree
import FlatSchema.Proofs.Schema.Strict

/-!
Loading cuts cycles of includes and nothing else. Whatever files include, themselves and each other
under any spelling, loading a root comes to an end, never reads a file while it is being read, and
gives the tree in which every file has below it what its includes enter.
-/

namespace FlatSchema.Resolver

open FileSystem

variable {State : Type} [KeptIn State] {files : FileSystem} {resolver : Resolver}

theorem candidates_eq_places (resolver : Resolver) (path : String) :
    resolver.candidates path = places resolver.searchDirectories resolver.loading path := by
  rw [candidates, places]
  cases resolver.loading.head?.bind Path.parent? <;> simp

/-- An include enters the file that is found for it, if the file is not being read and can be
parsed. -/
theorem entered?_eq_bind_find? (files : FileSystem) (resolver : Resolver) (path : String) :
    files.entered? resolver.searchDirectories resolver.loading path =
      (resolver.find? files path).bind fun location =>
        if location ∈ resolver.loading then none
        else (files.read location).toOption.bind fun content =>
          (Schema.parse? content).bind fun parsed => some (location, parsed.1.document) := by
  rw [entered?, find?, candidates_eq_places, Option.bind_assoc]
  simp only [List.contains_iff_mem]
  rfl

theorem parseWith?_answers {resolve : String → StateM State (Option Schema)}
    {answer : String → Option Schema}
    (answers : ∀ path, Answers (resolve path) resolver (answer path)) (content : List UInt8) :
    Answers (Schema.parseWith? resolve content) resolver
      ((Schema.parse? content).map fun result => (result.1.withAnswers answer, result.2)) := by
  rw [Schema.parseWith?_eq_mapM, ← Schema.map_answers_eq_map_parse?]
  exact (Answers.mapM answers _).bind_pure rfl

/-- An include path leads to the schema of its tree. -/
theorem resolveWithin_answers (bound : Nat) (distinct : resolver.loading.Nodup) (path : String) :
    Answers (resolveWithin files bound path : StateM State (Option Schema)) resolver
      ((files.included? resolver.searchDirectories bound resolver.loading path).map
        FileTree.schema) := by
  induction bound generalizing resolver path with
  | zero => exact .pure none
  | succ bound inductionHypothesis =>
    rw [resolveWithin, included?, entered?_eq_bind_find?]
    refine .get_bind ?_
    cases found : resolver.find? files path with
    | none => exact .pure none
    | some file =>
      by_cases loading : file ∈ resolver.loading
      · simp only [Option.bind_some, if_pos loading]
        exact .pure none
      · simp only [Option.bind_some, if_neg loading]
        cases files.read file with
        | error fault => exact .pure none
        | ok content =>
          -- The includes of the file are resolved with the file on top of those being read.
          have distinctBelow : (file :: resolver.loading).Nodup :=
            List.nodup_cons.mpr ⟨loading, distinct⟩
          have inner (path : String) :
              Answers (resolveWithin files bound path : StateM State (Option Schema))
                { resolver with loading := file :: resolver.loading } _ :=
            inductionHypothesis distinctBelow path
          have entered := (parseWith?_answers inner content).whileLoading distinctBelow
          refine entered.bind_pure ?_
          cases parsed : Schema.parse? content with
          | none => simp [Except.toOption, parsed]
          | some result => 
            simp [Except.toOption, parsed, FileTree.schema, Schema.withAnswers, List.map_filterMap]

theorem compileWith_answers {resolve : String → StateM State (Option Schema)}
    {answer : String → Option Schema}
    (answers : ∀ path, Answers (resolve path) resolver (answer path)) (text : String) :
    Answers (Schema.compileWith resolve text) resolver
      ((Schema.compile text).map (Schema.withAnswers answer)) := by
  rw [Schema.compileWith, Schema.compile]
  exact (parseWith?_answers answers (utf8Bytes text)).bind_pure (Schema.finish_map text _ _)

/-- The tree of a root file: below it is whatever its includes lead to. -/
def rootTree (files : FileSystem) (directories : List String) (location : Location)
    (document : Document) : FileTree :=
  .file location document
    (document.includes.filterMap (files.included? directories (depthBound files) [location]))

theorem faithful_rootTree (files : FileSystem) (directories : List String) (location : Location)
    (document : Document) :
    files.Faithful directories [] (rootTree files directories location document) := by
  have enough : (files.unread [location]).length < depthBound files :=
    Nat.lt_succ_of_le (List.length_filter_le _ _)
  refine .file ?_ ?_
  · rw [List.map_filterMap]
    exact List.filterMap_congr fun path _ => (faithful_of_included? enough).1
  · intro child member
    obtain ⟨path, -, led⟩ := List.mem_filterMap.mp member
    exact (faithful_of_included? enough).2 child led

/-- A path leads to a file that holds a text. -/
structure Holds (files : FileSystem) (path : String) (location : Location) (text : String) :
    Prop where
  isFile : files.isFile path = true
  canonical : files.canonicalize path = .ok location
  read : files.read location = .ok (utf8Bytes text)

theorem Holds.unique {path : String} {location otherLocation : Location} {text otherText : String}
    (holds : Holds files path location text) (other : Holds files path otherLocation otherText) :
    location = otherLocation ∧ text = otherText := by
  cases holds.canonical.symm.trans other.canonical
  have bytes := holds.read.symm.trans other.read
  exact ⟨rfl, utf8Bytes_injective (Except.ok.inj bytes)⟩

theorem compileRoot_answers {path : String} {location : Location} {text : String}
    (holds : Holds files path location text) (directories : List String) :
    Answers (compileRoot files path : StateM State (Except Failure Schema))
      { searchDirectories := directories }
      (((Schema.compile text).map fun schema =>
        (rootTree files directories location schema.document).schema).mapError .parse) := by
  have distinct : [location].Nodup := List.nodup_singleton location
  have inner (path : String) :
      Answers (resolve files path : StateM State (Option Schema))
        { searchDirectories := directories, loading := [location] } _ :=
    resolveWithin_answers (depthBound files) distinct path
  have compiled :
      Answers (whileLoading location (Schema.compileWith (resolve files) text) : StateM State _)
        { searchDirectories := directories } _ :=
    .whileLoading distinct (compileWith_answers inner text)
  have decoded : ofUtf8? (utf8Bytes text) = some text := ofUtf8?_eq_some_iff.mpr rfl
  simp only [compileRoot, holds.isFile, holds.canonical, holds.read, decoded]
  refine compiled.bind_pure ?_
  cases Schema.compile text with
  | error error => rfl
  | ok schema => simp [Except.map, Except.mapError, rootTree, FileTree.schema, Schema.withAnswers,
      List.map_filterMap]

theorem compileRoot_answers_failure {path : String}
    (missing : ¬ ∃ location text, Holds files path location text) :
    ∃ failure, ∀ (State : Type) [KeptIn State] (resolver : Resolver),
      Answers (compileRoot files path : StateM State (Except Failure Schema)) resolver
        (.error failure) := by
  cases isFile : files.isFile path with
  | false =>
    refine ⟨.notSchemaFile path, fun State _ resolver => ?_⟩
    simp only [compileRoot, isFile]
    exact .pure _
  | true =>
    cases canonical : files.canonicalize path with
    | error fault =>
      refine ⟨.system fault, fun State _ resolver => ?_⟩
      simp only [compileRoot, isFile, canonical]
      exact .pure _
    | ok location =>
      cases read : files.read location with
      | error fault =>
        refine ⟨.system fault, fun State _ resolver => ?_⟩
        simp only [compileRoot, isFile, canonical, read]
        exact .pure _
      | ok content =>
        cases decoded : ofUtf8? content with
        | none =>
          refine ⟨.notText, fun State _ resolver => ?_⟩
          simp only [compileRoot, isFile, canonical, read, decoded]
          exact .pure _
        | some text =>
          rw [← ofUtf8?_eq_some_iff.mp decoded] at read
          exact absurd ⟨location, text, isFile, canonical, read⟩ missing

theorem mapError_map_eq_ok_iff {compiled : Except ParseError Schema} {change : Schema → Schema}
    {schema : Schema} :
    (compiled.map change).mapError Failure.parse = .ok schema ↔
      ∃ strict, compiled = .ok strict ∧ change strict = schema := by
  cases compiled <;> simp [Except.map, Except.mapError]

/-- Whatever the files include, loading a root reads no file while it is being read. It succeeds
exactly if the root holds a text that compiles strictly, and the result is the schema of a tree in
which every file has below it the files that its includes enter; no file occurs twice on a way down
the tree. -/
theorem compileRoot_cuts_cycles (files : FileSystem) (directories : List String) (path : String) :
    let resolver : Resolver := { searchDirectories := directories }
    let run := (compileRoot files path : StateM Resolver (Except Failure Schema)) resolver
    let watched :=
      (compileRoot files path : StateM Journal (Except Failure Schema)) (Journal.start resolver)
    watched.1 = run.1 ∧ (∀ moment ∈ watched.2.moments, moment.loading.Nodup) ∧
      ((∃ schema, run.1 = .ok schema) ↔
        ∃ location text schema, Holds files path location text ∧
          Schema.compile text = .ok schema) ∧
      ∀ schema, run.1 = .ok schema →
        ∃ tree text strict, tree.schema = schema ∧ Holds files path tree.location text ∧
          Schema.compile text = .ok strict ∧ tree.document = strict.document ∧
          files.Faithful directories [] tree ∧ ∀ way, tree.Way way → way.Nodup := by
  intro resolver run watched
  have idle : resolver.loading.Nodup := List.nodup_nil
  by_cases held : ∃ location text, Holds files path location text
  · obtain ⟨location, text, holds⟩ := held
    have ran : run = (_, resolver) := Answers.run (compileRoot_answers holds directories)
    obtain ⟨same, distinct⟩ := Answers.watch (compileRoot_answers holds directories) idle
    simp only [ran, mapError_map_eq_ok_iff]
    refine ⟨same, distinct, ⟨?_, ?_⟩, ?_⟩
    · rintro ⟨_, strict, compiled, -⟩
      exact ⟨location, text, strict, holds, compiled⟩
    · rintro ⟨_, _, strict, otherHolds, compiled⟩
      obtain ⟨rfl, rfl⟩ := holds.unique otherHolds
      exact ⟨_, strict, compiled, rfl⟩
    · rintro _ ⟨strict, compiled, rfl⟩
      have faithful := faithful_rootTree files directories location strict.document
      refine ⟨_, text, strict, rfl, holds, compiled, rfl, faithful, ?_⟩
      intro way isWay
      simpa using faithful.nodup_way (List.nodup_singleton location) isWay
  · obtain ⟨failure, answers⟩ := compileRoot_answers_failure held
    have ran : run = (_, resolver) := Answers.run (answers Resolver resolver)
    obtain ⟨same, distinct⟩ := Answers.watch (answers Journal resolver) idle
    simp only [ran]
    refine ⟨same, distinct, ⟨nofun, ?_⟩, nofun⟩
    rintro ⟨location, text, -, holds, -⟩
    exact absurd ⟨location, text, holds⟩ held

end FlatSchema.Resolver
