import FlatSchema.Proofs.Command.Machine
import FlatSchema.Proofs.Command.Options
import Mathlib.Data.List.Forall2

/-!
Runs are all or nothing. Schemas are loaded and the text is made before anything is written or
printed, so the text comes from the files as they are at the start, whatever file it is written to
then, and a run that fails leaves no trace but its report, as long as no stream refuses a text.
-/

namespace FlatSchema

section Actions

variable {State α β : Type} {machine : Machine State}

namespace Action

theorem run_get_bind (next : Process State → Action State α) (process : Process State) :
    (get >>= next).run.run process = (next process).run.run process :=
  rfl

section Bind

variable {action : Action State α} {next : α → Action State β} {before after : Process State}

/-- Nothing follows an action that has stopped. -/
theorem run_bind_of_error {stop : Stop} (ran : action.run.run before = (.error stop, after)) :
    (action >>= next).run.run before = (.error stop, after) := by
  rw [ExceptT.run_bind, StateT.run_bind, ran]
  rfl

/-- What follows an action takes the process over. -/
theorem run_bind_of_ok {value : α} (ran : action.run.run before = (.ok value, after)) :
    (action >>= next).run.run before = (next value).run.run after := by
  rw [ExceptT.run_bind, StateT.run_bind, ran]
  rfl

end Bind

/-- An action that only looks: its result comes from the files as they are, and the process is left
as it was. -/
def Looks (machine : Machine State) (action : Action State α)
    (answer : FileSystem → Except Failure α) : Prop :=
  ∀ process, action.run.run process =
    ((answer (machine.files process.state)).mapError .failed, process)

theorem looks_load (path : String) : Looks machine (load machine path) (Schema.load · path) := by
  intro process
  rw [load, run_get_bind]
  change _ = ((Schema.load (machine.files process.state) path).mapError Stop.failed, process)
  cases Schema.load (machine.files process.state) path with
  | error failure => rfl
  | ok schema => rfl

theorem looks_pure (value : α) : Looks machine (pure value) fun _ => pure value :=
  fun _ => rfl

theorem Looks.bind {action : Action State α} {answer : FileSystem → Except Failure α}
    {next : α → Action State β} {answers : α → FileSystem → Except Failure β}
    (looks : Looks machine action answer)
    (further : ∀ value, Looks machine (next value) (answers value)) :
    Looks machine (action >>= next) fun files => answer files >>= (answers · files) := by
  intro process
  have looked := looks process
  cases answered : answer (machine.files process.state) with
  | error failure =>
    rw [answered] at looked
    rw [run_bind_of_error looked]
    simp only [answered]
    rfl
  | ok value =>
    rw [answered] at looked
    rw [run_bind_of_ok looked, further value process]
    simp only [answered]
    rfl

theorem Looks.mapM {load : String → Action State α}
    {answer : String → FileSystem → Except Failure α}
    (looks : ∀ path, Looks machine (load path) (answer path)) (paths : List String) :
    Looks machine (paths.mapM load) fun files => paths.mapM (answer · files) := by
  induction paths with
  | nil => exact looks_pure []
  | cons path paths inductionHypothesis =>
    simp only [List.mapM_cons]
    apply (looks path).bind
    intro value
    apply inductionHypothesis.bind
    intro values
    exact looks_pure (value :: values)

section Effects

variable {stream : StandardStream} {text shown : String} {process : Process State}

theorem print_of_taken
    (taken : machine.print process.state stream text = { shown }) :
    (print machine stream text).run.run process = (.ok (), process.add stream shown) := by
  rw [print, run_get_bind, taken]
  rfl

theorem print_of_refused {notice : String}
    (refused : machine.print process.state stream text = { shown, refusal := some notice }) :
    (print machine stream text).run.run process =
      (.error (.refused notice), process.add stream shown) := by
  rw [print, run_get_bind, refused]
  rfl

variable {path : String} {state : State}

theorem write_of_error {fault : Fault}
    (failed : machine.write process.state path (utf8Bytes text) = (.error fault, state)) :
    (write machine path text).run.run process =
      (.error (.failed (.system fault)), { process with state }) := by
  rw [write, run_get_bind, failed]
  rfl

theorem write_of_ok
    (written : machine.write process.state path (utf8Bytes text) = (.ok (), state)) :
    (write machine path text).run.run process = (.ok (), { process with state }) := by
  rw [write, run_get_bind, written]
  rfl

end Effects

end Action

end Actions

namespace Command

open FlatSchema.Action

/-- The text of a command, from the files of one moment. -/
inductive Makes (files : FileSystem) : Command → String → Prop where
  | generate {input : String} {output : Option String} {withImport : Bool} {schema : Schema} :
      Schema.load files input = .ok schema →
      Makes files (generate input output withImport) (Swift.source schema withImport)
  | containers {inputs : List String} {output : Option String} {schemas : List Schema} :
      List.Forall₂ (fun input schema => Schema.load files input = .ok schema) inputs schemas →
      Makes files (containers inputs output) (Swift.containerSource schemas)
  | dump {input : String} {schema : Schema} :
      Schema.load files input = .ok schema → Makes files (dump input) schema.dump

section Texts

variable {files : FileSystem}

/-- A list of results is there exactly if each of them is. -/
theorem mapM_eq_ok_iff {α β : Type} {load : α → Except Failure β} {items : List α}
    {results : List β} :
    items.mapM load = .ok results ↔
      List.Forall₂ (fun item result => load item = .ok result) items results := by
  induction items generalizing results with
  | nil =>
    rw [List.mapM_nil, List.forall₂_nil_left_iff]
    exact ⟨fun same => (Except.ok.inj same).symm, fun same => same ▸ rfl⟩
  | cons item items inductionHypothesis =>
    rw [List.mapM_cons, bind_eq_ok_iff, List.forall₂_cons_left_iff]
    apply exists_congr
    intro result
    simp only [bind_eq_ok_iff, inductionHypothesis]
    constructor
    · rintro ⟨loaded, others, further, same⟩
      exact ⟨others, loaded, further, (Except.ok.inj same).symm⟩
    · rintro ⟨others, loaded, further, rfl⟩
      exact ⟨loaded, others, further, rfl⟩

theorem text_eq_ok_iff {command : Command} {text : String} :
    command.text files = .ok text ↔ Makes files command text := by
  constructor
  · intro made
    cases command with
    | generate input output withImport =>
      obtain ⟨schema, loaded, same⟩ := bind_eq_ok_iff.mp made
      cases same
      exact .generate loaded
    | containers inputs output =>
      obtain ⟨schemas, loaded, same⟩ := bind_eq_ok_iff.mp made
      cases same
      exact .containers (mapM_eq_ok_iff.mp loaded)
    | dump input =>
      obtain ⟨schema, loaded, same⟩ := bind_eq_ok_iff.mp made
      cases same
      exact .dump loaded
  · intro makes
    cases makes with
    | generate loaded => exact bind_eq_ok_iff.mpr ⟨_, loaded, rfl⟩
    | containers loaded => exact bind_eq_ok_iff.mpr ⟨_, mapM_eq_ok_iff.mpr loaded, rfl⟩
    | dump loaded => exact bind_eq_ok_iff.mpr ⟨_, loaded, rfl⟩

end Texts

section Runs

variable {State File : Type} {machine : Machine State}

variable (machine) in
/-- The text comes from the files as they are. -/
theorem looks_compose (command : Command) :
    Looks machine (command.compose (load machine)) (command.text ·) := by
  cases command with
  | generate input output withImport =>
    apply (looks_load input).bind
    intro schema
    exact looks_pure _
  | containers inputs output =>
    apply (Looks.mapM looks_load inputs).bind
    intro schemas
    exact looks_pure _
  | dump input =>
    apply (looks_load input).bind
    intro schema
    exact looks_pure _

/-- All that a run can do. The text is there before anything is written or printed, and a report is
shown as far as the error stream takes it. -/
inductive Ran (machine : Machine State) (state : State) (command : Command) :
    Outcome State → Prop where
  | failed {failure : Failure} :
      command.text (machine.files state) = .error failure →
      Ran machine state command
        ⟨⟨state, "", (machine.print state .error (Stop.failed failure).report).shown⟩, 1⟩
  | printed {text shown : String} :
      Makes (machine.files state) command text → command.output? = none →
      machine.print state .output (text ++ "\n") = { shown } →
      Ran machine state command ⟨⟨state, shown, ""⟩, 0⟩
  | unprinted {text shown notice : String} :
      Makes (machine.files state) command text → command.output? = none →
      machine.print state .output (text ++ "\n") = { shown, refusal := some notice } →
      Ran machine state command ⟨⟨state, shown, (machine.print state .error notice).shown⟩, 101⟩
  | unwritten {text path : String} {fault : Fault} {after : State} :
      Makes (machine.files state) command text → command.output? = some path →
      machine.write state path (utf8Bytes text) = (.error fault, after) →
      Ran machine state command
        ⟨⟨after, "", (machine.print after .error (Stop.failed (.system fault)).report).shown⟩, 1⟩
  | written {text path shown : String} {after : State} :
      Makes (machine.files state) command text → command.output? = some path →
      machine.write state path (utf8Bytes text) = (.ok (), after) →
      machine.print after .error ("Written to " ++ path ++ "\n") = { shown } →
      Ran machine state command ⟨⟨after, "", shown⟩, 0⟩
  | unreported {text path shown notice : String} {after : State} :
      Makes (machine.files state) command text → command.output? = some path →
      machine.write state path (utf8Bytes text) = (.ok (), after) →
      machine.print after .error ("Written to " ++ path ++ "\n") =
        { shown, refusal := some notice } →
      Ran machine state command
        ⟨⟨after, "", shown ++ (machine.print after .error notice).shown⟩, 101⟩

section Endings

variable {state : State} {command : Command} {process : Process State}

theorem run_of_end (performed : (command.perform machine).run.run { state } = (.ok (), process)) :
    command.run machine state = ⟨process, 0⟩ := by
  rw [run, performed]

theorem run_of_stop {stop : Stop}
    (performed : (command.perform machine).run.run { state } = (.error stop, process)) :
    command.run machine state =
      ⟨process.add .error (machine.print process.state .error stop.report).shown, stop.code⟩ := by
  rw [run, performed]

theorem perform_of_error {failure : Failure}
    (failed : command.text (machine.files state) = .error failure) :
    (command.perform machine).run.run { state } = (.error (.failed failure), { state }) := by
  have looked := looks_compose machine command { state }
  dsimp only at looked
  rw [failed] at looked
  exact run_bind_of_error looked

theorem perform_of_ok {text : String} (made : command.text (machine.files state) = .ok text) :
    (command.perform machine).run.run { state } =
      (deliver machine command.output? text).run.run { state } := by
  have looked := looks_compose machine command { state }
  dsimp only at looked
  rw [made] at looked
  exact run_bind_of_ok looked

end Endings

theorem run_ran (state : State) (command : Command) :
    Ran machine state command (command.run machine state) := by
  cases made : command.text (machine.files state) with
  | error failure =>
    rw [run_of_stop (perform_of_error made), Process.add, String.empty_append]
    exact .failed made
  | ok text =>
    have makes := text_eq_ok_iff.mp made
    have performed := perform_of_ok made
    cases named : command.output? with
    | none =>
      rw [named, deliver] at performed
      rcases printing : machine.print state .output (text ++ "\n") with ⟨shown, _ | notice⟩
      · rw [print_of_taken printing] at performed
        rw [run_of_end performed, Process.add, String.empty_append]
        exact .printed makes named printing
      · rw [print_of_refused printing] at performed
        rw [run_of_stop performed, Process.add, Process.add, String.empty_append,
          String.empty_append]
        exact .unprinted makes named printing
    | some path =>
      rw [named, deliver] at performed
      rcases wrote : machine.write state path (utf8Bytes text) with ⟨fault | _, after⟩
      · rw [run_bind_of_error (write_of_error wrote)] at performed
        rw [run_of_stop performed, Process.add, String.empty_append]
        exact .unwritten makes named wrote
      · rw [run_bind_of_ok (write_of_ok wrote)] at performed
        rcases printing : machine.print after .error ("Written to " ++ path ++ "\n") with
          ⟨shown, _ | notice⟩
        · rw [print_of_taken printing] at performed
          rw [run_of_end performed, Process.add, String.empty_append]
          exact .written makes named wrote printing
        · rw [print_of_refused printing] at performed
          rw [run_of_stop performed, Process.add, Process.add, String.empty_append]
          exact .unreported makes named wrote printing

variable {inventory : Inventory machine File} {reader : Reader} {state : State}
  {arguments : List String} {command : Command}

/-- What a successful run leaves behind: its text, in the file that the arguments name and nowhere
else, or on the output where they name none. -/
structure Delivered (inventory : Inventory machine File) (state : State) (arguments : List String)
    (text : String) (outcome : Outcome State) : Prop where
  written : ∀ path, Gives arguments outputOption path →
    outcome.stdout = "" ∧
      machine.write state path (utf8Bytes text) = (.ok (), outcome.state) ∧
      ∃ file, inventory.Replaced state outcome.state path file (utf8Bytes text)
  printed : (∀ path, ¬ Gives arguments outputOption path) →
    outcome.stdout = text ++ "\n" ∧ outcome.state = state

/-- What a run leaves behind that a stream has stopped: its text was made, and if it was to be
written that is done. -/
structure Refused (machine : Machine State) (state : State) (arguments : List String)
    (text : String) (outcome : Outcome State) : Prop where
  written : outcome.state = state ∨ ∃ path, Gives arguments outputOption path ∧
    machine.write state path (utf8Bytes text) = (.ok (), outcome.state)
  refused : ∃ stream message, (machine.print outcome.state stream message).refusal ≠ none

theorem run_delivers (writes : machine.WritesWhole inventory) (prints : machine.PrintsWhole)
    (tells : reader.TellsOutput) (read : reader.read arguments = .ok command)
    (succeeds : (command.run machine state).code = 0) :
    ∃ text, Makes (machine.files state) command text ∧
      Delivered inventory state arguments text (command.run machine state) := by
  generalize command.run machine state = outcome, run_ran state command = ran at *
  cases ran with
  | failed => cases succeeds
  | unprinted => cases succeeds
  | unwritten => cases succeeds
  | unreported => cases succeeds
  | @printed text shown makes unnamed printing =>
    refine ⟨text, makes, ?_, ?_⟩
    · intro path gives
      rw [← tells read, unnamed] at gives
      cases gives
    · intro _
      have whole := prints (congrArg Printing.refusal printing)
      rw [printing] at whole
      exact ⟨whole, rfl⟩
  | @written text path shown after makes named wrote =>
    refine ⟨text, makes, ?_, ?_⟩
    · intro path' gives
      rw [← tells read, named] at gives
      cases gives
      exact ⟨rfl, wrote, writes.replaced wrote⟩
    · intro none
      exact absurd ((tells read path).mp named) (none path)

theorem run_fails_clean (writes : machine.WritesWhole inventory)
    (fails : (command.run machine state).code ≠ 0)
    (accepted : (command.run machine state).code ≠ 101) :
    (command.run machine state).state = state ∧ (command.run machine state).stdout = "" := by
  generalize command.run machine state = outcome, run_ran state command = ran at *
  cases ran with
  | failed => exact ⟨rfl, rfl⟩
  | unwritten _ _ refused => exact ⟨writes.refused refused, rfl⟩
  | printed => contradiction
  | written => contradiction
  | unprinted => contradiction
  | unreported => contradiction

theorem run_refused (tells : reader.TellsOutput) (read : reader.read arguments = .ok command)
    (stopped : (command.run machine state).code = 101) :
    ∃ text, Makes (machine.files state) command text ∧
      Refused machine state arguments text (command.run machine state) := by
  generalize command.run machine state = outcome, run_ran state command = ran at *
  cases ran with
  | failed => cases stopped
  | unwritten => cases stopped
  | printed => cases stopped
  | written => cases stopped
  | @unprinted text shown notice makes _ printing =>
    refine ⟨text, makes, .inl rfl, .output, text ++ "\n", ?_⟩
    simp [printing]
  | @unreported text path shown notice after makes named wrote printing =>
    refine ⟨text, makes, .inr ⟨path, (tells read path).mp named, wrote⟩, .error,
      "Written to " ++ path ++ "\n", ?_⟩
    simp [printing]

theorem run_succeeds (takes : machine.TakesAll) (tells : reader.TellsOutput)
    (read : reader.read arguments = .ok command) {text : String}
    (makes : Makes (machine.files state) command text)
    (writable : ∀ path, Gives arguments outputOption path →
      ∃ after, machine.write state path (utf8Bytes text) = (.ok (), after)) :
    (command.run machine state).code = 0 := by
  have made := text_eq_ok_iff.mpr makes
  generalize command.run machine state = outcome, run_ran state command = ran at *
  cases ran with
  | printed => rfl
  | written => rfl
  | failed failed => cases made.symm.trans failed
  | unwritten makes' named refused =>
    cases made.symm.trans (text_eq_ok_iff.mpr makes')
    obtain ⟨after', wrote⟩ := writable _ ((tells read _).mp named)
    cases refused.symm.trans wrote
  | unprinted _ _ printing =>
    cases (takes _ _ _).symm.trans (congrArg Printing.refusal printing)
  | unreported _ _ _ printing =>
    cases (takes _ _ _).symm.trans (congrArg Printing.refusal printing)

end Runs

/-- A run that fails prints nothing and leaves everything as it was, unless a stream refuses what it
is given, which is told by the exit code. A run that succeeds makes its text from the files as they
were at the start and delivers it. It does succeed if the arguments are a command, its text can be
made, a file that they name can be written, and no stream refuses a text. -/
theorem run_all_or_nothing {State File : Type} (machine : Machine State)
    (inventory : Inventory machine File) (reader : Reader)
    (writes : machine.WritesWhole inventory) (prints : machine.PrintsWhole)
    (tells : reader.TellsOutput) (state : State) (arguments : List String)
    (noHelp : reader.read arguments ≠ .error .helpRequested) :
    ((runWith machine reader state arguments).code ≠ 0 →
      machine.TakesAll ∨ (runWith machine reader state arguments).code ≠ 101 →
      (runWith machine reader state arguments).state = state ∧
        (runWith machine reader state arguments).stdout = "") ∧
    ((runWith machine reader state arguments).code = 101 →
      ∃ command text, reader.read arguments = .ok command ∧
        Makes (machine.files state) command text ∧
        Refused machine state arguments text (runWith machine reader state arguments)) ∧
    ((runWith machine reader state arguments).code = 0 →
      ∃ command text, reader.read arguments = .ok command ∧
        Makes (machine.files state) command text ∧
        Delivered inventory state arguments text (runWith machine reader state arguments)) ∧
    ∀ command text, reader.read arguments = .ok command →
      Makes (machine.files state) command text →
      (∀ path, Gives arguments outputOption path →
        ∃ after, machine.write state path (utf8Bytes text) = (.ok (), after)) →
      machine.TakesAll →
      (runWith machine reader state arguments).code = 0 := by
  unfold runWith
  cases read : reader.read arguments with
  | error usage =>
    cases usage with
    | helpRequested => contradiction
    | invalid =>
      refine ⟨fun _ _ => ⟨rfl, rfl⟩, ?_, ?_, ?_⟩
      · intro stopped
        cases stopped
      · intro succeeds
        cases succeeds
      · intro command text read
        cases read
  | ok command =>
    have refused (stopped : (command.run machine state).code = 101) :=
      run_refused tells read stopped
    refine ⟨?_, ?_, ?_, ?_⟩
    · rintro fails (takes | accepted)
      · apply run_fails_clean writes fails
        intro stopped
        obtain ⟨text, -, -, stream, message, refusal⟩ := refused stopped
        exact refusal (takes _ stream message)
      · exact run_fails_clean writes fails accepted
    · intro stopped
      obtain ⟨text, makes, left⟩ := refused stopped
      exact ⟨command, text, rfl, makes, left⟩
    · intro succeeds
      obtain ⟨text, makes, delivered⟩ := run_delivers writes prints tells read succeeds
      exact ⟨command, text, rfl, makes, delivered⟩
    · intro command' text same makes writable takes
      cases same
      exact run_succeeds takes tells read makes writable

section Overwriting

/-- A directory with a schema and one that it includes. -/
def library : Workspace :=
  { disk := ⟨[(["a.fbs"], .file (utf8Bytes "include \"b.fbs\"; namespace a.b;")),
      (["b.fbs"], .file (utf8Bytes "namespace c;"))]⟩
    current := [] }

/-- The text is written over the schema that it comes from. -/
theorem run_all_or_nothing_overwriting :
    Workspace.machine.WritesWhole Workspace.inventory ∧ Workspace.machine.PrintsWhole ∧
      Workspace.machine.TakesAll ∧ reader.TellsOutput ∧
      reader.read ["namespaces", "b.fbs", "-oa.fbs", "a.fbs"] ≠ .error .helpRequested ∧
      (runArguments library ["namespaces", "b.fbs", "-oa.fbs", "a.fbs"]).code = 0 ∧
      (runArguments library ["namespaces", "b.fbs", "-oa.fbs", "a.fbs"]).stdout = "" ∧
      ∃ file, Workspace.inventory.Replaced library
        (runArguments library ["namespaces", "b.fbs", "-oa.fbs", "a.fbs"]).state "a.fbs" file
        (utf8Bytes "public enum C \x7b\x7d\npublic enum AB \x7b\x7d") := by
  have read : reader.read ["namespaces", "b.fbs", "-oa.fbs", "a.fbs"] =
      .ok (containers ["b.fbs", "a.fbs"] (some "a.fbs")) := by
    decide +kernel
  have made : text library (containers ["b.fbs", "a.fbs"] (some "a.fbs")) =
      .ok "public enum C \x7b\x7d\npublic enum AB \x7b\x7d" := by
    decide +kernel
  have noHelp : reader.read ["namespaces", "b.fbs", "-oa.fbs", "a.fbs"] ≠
      .error .helpRequested := by
    rw [read]
    intro same
    cases same
  have gives : Gives ["namespaces", "b.fbs", "-oa.fbs", "a.fbs"] outputOption "a.fbs" :=
    (tellsOutput_reader read _).mp rfl
  have writable : ∀ path, Gives ["namespaces", "b.fbs", "-oa.fbs", "a.fbs"] outputOption path →
      ∃ after, Workspace.machine.write library path
        (utf8Bytes "public enum C \x7b\x7d\npublic enum AB \x7b\x7d") = (.ok (), after) := by
    intro path gives
    have output := (tellsOutput_reader read _).mpr gives
    cases output
    exact ⟨_, rfl⟩
  obtain ⟨-, -, delivers, succeeds⟩ := run_all_or_nothing Workspace.machine Workspace.inventory reader
    Workspace.writesWhole_machine Workspace.printsWhole_machine tellsOutput_reader library _ noHelp
  have ended := succeeds _ _ read (text_eq_ok_iff.mp made) writable Workspace.takesAll_machine
  obtain ⟨command, text, read', makes, delivered⟩ := delivers ended
  cases read.symm.trans read'
  cases made.symm.trans (text_eq_ok_iff.mpr makes)
  obtain ⟨silent, -, replaced⟩ := delivered.written "a.fbs" gives
  exact ⟨Workspace.writesWhole_machine, Workspace.printsWhole_machine, Workspace.takesAll_machine,
    tellsOutput_reader, noHelp, ended, silent, replaced⟩

end Overwriting

end Command

end FlatSchema
