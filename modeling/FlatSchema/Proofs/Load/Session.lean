import FlatSchema.Proofs.Load.Cycles

/-!
Many calls on one resolver. Every call ends with the files being read as they were when it began,
however far down an include failed, so a resolver that is used again is as good as a new one. Files
and the current directory may change from one call to the next, but not during a call.
-/

namespace FlatSchema.Resolver

/-- What can be asked of a resolver from outside. -/
inductive Request where
  | compileRoot (path : String)
  | resolve (path : String)

inductive Reply where
  | compiled (result : Except Failure Schema)
  | resolved (schema : Option Schema)

namespace Request

def perform (files : FileSystem) : Request → StateM Resolver Reply
  | .compileRoot path => do return .compiled (← Resolver.compileRoot files path)
  | .resolve path => do return .resolved (← Resolver.resolve files path)

/-- The reply of a resolver that has been used for nothing else. -/
def freshReply (directories : List String) (files : FileSystem) (request : Request) : Reply :=
  (request.perform files { searchDirectories := directories }).1

end Request

/-- Requests one after the other, each with the files as they are when it is made. Each reply is
noted with the resolver that is left behind. -/
def session (requests : List (FileSystem × Request)) : StateM Resolver (List (Reply × Resolver)) :=
  requests.mapM fun (files, request) => do
    let reply ← request.perform files
    return (reply, ← get)

theorem exists_compileRoot_answers (files : FileSystem) (directories : List String)
    (path : String) :
    ∃ result, Answers (compileRoot files path : StateM Resolver (Except Failure Schema))
      { searchDirectories := directories } result := by
  by_cases held : ∃ location text, Holds files path location text
  · obtain ⟨location, text, holds⟩ := held
    exact ⟨_, compileRoot_answers holds directories⟩
  · obtain ⟨failure, answers⟩ := compileRoot_answers_failure held
    exact ⟨.error failure, answers Resolver _⟩

theorem exists_perform_answers (files : FileSystem) (directories : List String)
    (request : Request) :
    ∃ reply, Answers (request.perform files) { searchDirectories := directories } reply := by
  cases request with
  | compileRoot path =>
    obtain ⟨result, answers⟩ := exists_compileRoot_answers files directories path
    exact ⟨.compiled result, answers.bind_pure rfl⟩
  | resolve path =>
    have idle : ({ searchDirectories := directories } : Resolver).loading.Nodup := List.nodup_nil
    have answers : Answers (Resolver.resolve files path : StateM Resolver (Option Schema))
        { searchDirectories := directories } _ :=
      resolveWithin_answers (depthBound files) idle path
    exact ⟨.resolved _, answers.bind_pure rfl⟩

/-- A request gets the reply of a fresh resolver and leaves a fresh resolver behind. -/
theorem perform_answers (files : FileSystem) (directories : List String) (request : Request) :
    Answers (request.perform files) { searchDirectories := directories }
      (request.freshReply directories files) := by
  obtain ⟨reply, answers⟩ := exists_perform_answers files directories request
  have same : request.freshReply directories files = reply := by
    unfold Request.freshReply
    rw [answers.run]
  rw [same]
  exact answers

/-- Whatever has been asked of a resolver before, and however it went, each reply is that of a fresh
resolver with the same search directories, and behind each request no file is left as being read and
the search directories are what they were. -/
theorem session_keeps_no_memory (directories : List String)
    (requests : List (FileSystem × Request)) :
    (session requests).run { searchDirectories := directories } =
      (requests.map fun (files, request) =>
          (request.freshReply directories files,
            { searchDirectories := directories, loading := [] }),
        { searchDirectories := directories, loading := [] }) := by
  apply Answers.run
  apply Answers.mapM
  intro (files, request)
  apply (perform_answers files directories request).bind
  exact Answers.get_bind (.pure _)

end FlatSchema.Resolver
