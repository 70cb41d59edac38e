import CallScript.CommandLine
import CallScript.Proofs.Files.LastName

/-! # What the command line does to files

A run of the program on a tree of files changes all that it should or nothing.

* **`run_build`**: a build writes the program to which its file compiles, or it fails and leaves the
  files as they are.
* **`read_input_of_write`**: writing the result leaves the script as it is.
* **`CommandLine.run_allOrNothing`**: when the exit status is 0, what is printed, and what becomes of
  the files. -/

namespace CallScript

open Files Script

/-! ## Reading and writing -/

section Access

variable {tree : FileTree} {path : String} {contents : Bytes}

/-- A step whose effect is known is followed by what comes next, from the files that it leaves. -/
theorem run_bind_of_run_eq {α β : Type} {step : StateM FileTree α} {next : α → StateM FileTree β}
    {result : α} {after : FileTree} (hstep : step.run tree = (result, after)) :
    (step >>= next).run tree = (next result).run after := by
  rw [StateT.run_bind, hstep]
  rfl

/-- A write that succeeds replaces the files. -/
theorem run_write_of_ok {after : FileTree} (hwrite : tree.write path contents = .ok after) :
    (FileTree.access.write path contents).run tree = (.ok (), after) := by
  have hget : (get : StateM FileTree FileTree).run tree = (tree, tree) := rfl
  rw [FileTree.access, run_bind_of_run_eq hget, hwrite]
  rfl

/-- A write that fails leaves the files as they are. -/
theorem run_write_of_error {error : FileError} (hwrite : tree.write path contents = .error error) :
    (FileTree.access.write path contents).run tree = (.error error, tree) := by
  have hget : (get : StateM FileTree FileTree).run tree = (tree, tree) := rfl
  rw [FileTree.access, run_bind_of_run_eq hget, hwrite]
  rfl

/-- Reading a text leaves the files as they are, and gives the text of the file. -/
theorem run_readText (tree : FileTree) (path : String) :
    ∃ result, (FileTree.access.readText path).run tree = (result, tree) ∧
      ∀ text, result = .ok text ↔
        ∃ bytes, tree.read path = .ok bytes ∧ Text.ofUtf8? bytes = some text := by
  have hread : (FileTree.access.read path).run tree = (tree.read path, tree) := rfl
  rw [FileAccess.readText, run_bind_of_run_eq hread]
  cases tree.read path with
  | error error => exact ⟨.error error, rfl, by simp⟩
  | ok bytes =>
    dsimp only
    cases htext : Text.ofUtf8? bytes with
    | none => exact ⟨.error .notText, rfl, by simp [htext]⟩
    | some text => exact ⟨.ok text, rfl, by simp [htext]⟩

end Access

/-! ## Building -/

/-- A file in a tree **compiles to** a program: it holds text that does. -/
def CompilesTo (tree : FileTree) (input : String) (program : Program) : Prop :=
  ∃ bytes source, tree.read input = .ok bytes ∧ Text.ofUtf8? bytes = some source ∧
    compile source = .ok program

/-- Compiling a file leaves the files as they are, and gives a program exactly if the file compiles to
it. -/
theorem run_compileFile (tree : FileTree) (input : String) :
    ∃ compilation, (compileFile FileTree.access input).run tree = (compilation, tree) ∧
      ∀ program, compilation.result = .ok program ↔ CompilesTo tree input program := by
  obtain ⟨result, hread, htext⟩ := run_readText tree input
  rw [compileFile, run_bind_of_run_eq hread]
  cases result with
  | error error =>
    refine ⟨⟨[], "", .error (.file input error)⟩, rfl, fun program => ?_⟩
    simp only [reduceCtorEq, false_iff] at htext ⊢
    rintro ⟨bytes, source, hbytes, hsource, -⟩
    exact htext source ⟨bytes, hbytes, hsource⟩
  | ok source =>
    refine ⟨compileText input source, rfl, fun program => ?_⟩
    obtain ⟨bytes, hbytes, hsource⟩ := (htext source).1 rfl
    cases hcompile : compile source <;>
      simp [compileText, CompilesTo, hbytes, hsource, hcompile]

/-- Writing a program writes its hexadecimal text, or fails and leaves the files as they are. -/
theorem run_writeProgram (tree : FileTree) (output : String) (program : Program) :
    (∃ after, tree.write output (Text.utf8 program.hex.toList) = .ok after ∧
        (writeProgram FileTree.access output program).run tree = (.ok (), after)) ∨
      ∃ error, (writeProgram FileTree.access output program).run tree = (.error error, tree) := by
  cases hwrite : tree.write output (Text.utf8 program.hex.toList) with
  | ok after => exact .inl ⟨after, rfl, run_bind_of_run_eq (run_write_of_ok hwrite)⟩
  | error error =>
    exact .inr ⟨.file output error, run_bind_of_run_eq (run_write_of_error hwrite)⟩

/-- What a build does: it writes the program to which the file compiles, or it fails and leaves the
files as they are. -/
theorem run_build (tree : FileTree) (input : String) :
    (∃ compilation program after, CompilesTo tree input program ∧
        tree.write (outputPath input) (Text.utf8 program.hex.toList) = .ok after ∧
        (build FileTree.access input).run tree =
          ((compilation, .ok (program, outputPath input)), after)) ∨
      ∃ compilation error, (build FileTree.access input).run tree =
        ((compilation, .error error), tree) := by
  obtain ⟨compilation, hcompile, hresult⟩ := run_compileFile tree input
  rw [build, run_bind_of_run_eq hcompile]
  cases hprogram : compilation.result with
  | error error => exact .inr ⟨compilation, error, rfl⟩
  | ok program =>
    obtain ⟨after, hwrite, hrun⟩ | ⟨error, hrun⟩ := run_writeProgram tree (outputPath input) program
    · exact .inl ⟨compilation, program, after, (hresult program).1 hprogram, hwrite,
        run_bind_of_run_eq hrun⟩
    · exact .inr ⟨compilation, error, run_bind_of_run_eq hrun⟩

/-- Writing the result of a script leaves the script as it is. -/
theorem read_input_of_write {tree after : FileTree} {input : String} {program : Program}
    {contents : Bytes} (hcompiles : CompilesTo tree input program)
    (hwrite : tree.write (outputPath input) contents = .ok after) :
    after.read input = tree.read input := by
  obtain ⟨bytes, source, hread, -, -⟩ := hcompiles
  rw [hread]
  exact FileTree.read_of_write hread hwrite fun _ _ => outputPath_apart

/-! ## Running -/

namespace CommandLine

/-- A **request for help**: the first argument asks for it. -/
def AsksForHelp (arguments : List String) : Prop :=
  ∃ first rest, arguments = first :: rest ∧ (first = "--help" ∨ first = "-h")

/-- A build of a file in a tree **succeeds** with a program. -/
def Builds (tree : FileTree) (input : String) (program : Program) : Prop :=
  ∃ output, ((build FileTree.access input).run tree).1.2 = .ok (program, output)

/-- What a run does, by its arguments: it helps, refuses them or builds a file. -/
theorem run_by_arguments (color : Bool) (name : String) (arguments : List String)
    (tree : FileTree) :
    (AsksForHelp arguments ∧
        ∃ text, (run FileTree.access color name arguments).run tree = (⟨0, "", text⟩, tree)) ∨
      (¬ AsksForHelp arguments ∧ (∀ input, arguments ≠ [input]) ∧
        ∃ text, (run FileTree.access color name arguments).run tree = (⟨1, "", text⟩, tree)) ∨
      ∃ input, ¬ AsksForHelp arguments ∧ arguments = [input] ∧
        ∀ compilation result after,
          (build FileTree.access input).run tree = ((compilation, result), after) →
            (run FileTree.access color name arguments).run tree =
              (buildOutcome color compilation result, after) := by
  cases arguments with
  | nil => exact .inr (.inl ⟨by simp [AsksForHelp], by simp, _, rfl⟩)
  | cons first rest =>
    by_cases hhelp : first = "--help" ∨ first = "-h"
    · refine .inl ⟨⟨first, rest, rfl, hhelp⟩, logLine color .info (usage name), ?_⟩
      simp only [run, Invocation.ofArguments, if_pos hhelp]
      rfl
    · have hnot : ¬ AsksForHelp (first :: rest) := by
        rintro ⟨first, rest, ⟨⟩, h⟩
        exact hhelp h
      cases rest with
      | nil =>
        refine .inr (.inr ⟨first, hnot, rfl, fun compilation result after hbuild => ?_⟩)
        simp only [run, Invocation.ofArguments, if_neg hhelp]
        exact run_bind_of_run_eq hbuild
      | cons extra rest =>
        refine .inr (.inl ⟨hnot, by simp, ?_⟩)
        simp only [run, Invocation.ofArguments, if_neg hhelp]
        exact ⟨_, rfl⟩

/-- What comes of a run: help, a failure that leaves the files as they are, or a build that writes the
program to which the file compiles. -/
theorem run_effects (color : Bool) (name : String) (arguments : List String) (tree : FileTree) :
    (AsksForHelp arguments ∧
        ∃ text, (run FileTree.access color name arguments).run tree = (⟨0, "", text⟩, tree)) ∨
      (¬ AsksForHelp arguments ∧ (¬ ∃ input program, arguments = [input] ∧ Builds tree input program) ∧
        ∃ text, (run FileTree.access color name arguments).run tree = (⟨1, "", text⟩, tree)) ∨
      ∃ input program text after, ¬ AsksForHelp arguments ∧ arguments = [input] ∧
        (∀ other, Builds tree input other ↔ other = program) ∧ CompilesTo tree input program ∧
        tree.write (outputPath input) (Text.utf8 program.hex.toList) = .ok after ∧
        (run FileTree.access color name arguments).run tree =
          (⟨0, program.hex ++ "\n", text⟩, after) := by
  obtain hhelp | ⟨hnot, hcount, hcase⟩ | ⟨input, hnot, rfl, hcase⟩ :=
    run_by_arguments color name arguments tree
  · exact .inl hhelp
  · refine .inr (.inl ⟨hnot, ?_, hcase⟩)
    rintro ⟨input, program, hinput, -⟩
    exact hcount input hinput
  · obtain ⟨compilation, program, after, hcompiles, hwrite, hbuild⟩ | ⟨compilation, error, hbuild⟩ :=
      run_build tree input
    · have hbuilds : ∀ other, Builds tree input other ↔ other = program := by
        simp [Builds, hbuild, eq_comm]
      exact .inr (.inr ⟨input, program, _, after, hnot, rfl, hbuilds, hcompiles, hwrite,
        hcase _ _ _ hbuild⟩)
    · refine .inr (.inl ⟨hnot, ?_, _, hcase _ _ _ hbuild⟩)
      rintro ⟨input, program, ⟨⟩, output, houtput⟩
      simp [hbuild] at houtput

/-- A run is **all or nothing**. Its exit status is 0 exactly for a request for help and for a single
file whose build succeeds. After such a build the result is in its file, every other entry is as it
was, and the result is printed. In all other cases nothing is printed and no file has changed. The
files that the arguments name are never changed. -/
theorem run_allOrNothing (color : Bool) (name : String) (arguments : List String) (tree : FileTree)
    {outcome : Outcome} {after : FileTree}
    (hrun : (run FileTree.access color name arguments).run tree = (outcome, after)) :
    (outcome.status = 0 ↔ AsksForHelp arguments ∨
      ∃ input program, arguments = [input] ∧ Builds tree input program) ∧
    (∀ input program, arguments = [input] → ¬ AsksForHelp arguments → Builds tree input program →
      CompilesTo tree input program ∧
        tree.Written (outputPath input) (Text.utf8 program.hex.toList) after ∧
        outcome.stdout = program.hex ++ "\n") ∧
    ((AsksForHelp arguments ∨ ¬ ∃ input program, arguments = [input] ∧ Builds tree input program) →
      outcome.stdout = "" ∧ after = tree) ∧
    ∀ input ∈ arguments, after.read input = tree.read input := by
  obtain ⟨hhelp, text, hcase⟩ | ⟨hnot, hnone, text, hcase⟩ |
    ⟨input, program, text, final, hnot, rfl, hbuilds, hcompiles, hwrite, hcase⟩ :=
      run_effects color name arguments tree
  all_goals obtain ⟨rfl, rfl⟩ := Prod.mk.inj (hcase.symm.trans hrun)
  · exact ⟨iff_of_true rfl (.inl hhelp), fun _ _ _ hnot => absurd hhelp hnot, fun _ => ⟨rfl, rfl⟩,
      fun _ _ => rfl⟩
  · exact ⟨iff_of_false (show ¬ (1 : UInt32) = 0 by decide) (not_or.2 ⟨hnot, hnone⟩),
      fun input program hinput _ hbuilds => absurd ⟨input, program, hinput, hbuilds⟩ hnone,
      fun _ => ⟨rfl, rfl⟩, fun _ _ => rfl⟩
  · have hbuilt : ∃ file program, [input] = [file] ∧ Builds tree file program :=
      ⟨input, program, rfl, (hbuilds program).2 rfl⟩
    refine ⟨iff_of_true rfl (.inr hbuilt), ?_, ?_, ?_⟩
    · rintro file other ⟨⟩ - hother
      obtain rfl : other = program := (hbuilds other).1 hother
      exact ⟨hcompiles, FileTree.written_of_write hwrite, rfl⟩
    · rintro (hhelp | hnone)
      · exact absurd hhelp hnot
      · exact absurd hbuilt hnone
    · intro file hfile
      obtain rfl : file = input := List.mem_singleton.1 hfile
      exact read_input_of_write hcompiles hwrite

/-- A working directory with a script in it and a directory beside the script. -/
def sampleFiles : FileTree :=
  ⟨["work"], [(["work", "lib"], .directory), (["work", "swap.call"], .file
    (Text.utf8 "0xAb00000000000000000000000000000000000001 f(uint) 7".toList))]⟩

/-- The script can be built on a detour through that directory; the result stands next to it. -/
theorem sampleFiles_allOrNothing :
    outputPath "lib/.././swap.call" = "lib/../swap.calldata" ∧
      ∃ program outcome after, Builds sampleFiles "lib/.././swap.call" program ∧
        (run FileTree.access false "callc" ["lib/.././swap.call"]).run sampleFiles =
          (outcome, after) ∧
        outcome.status = 0 ∧ outcome.stdout = program.hex ++ "\n" ∧
        sampleFiles.Written "lib/../swap.calldata" (Text.utf8 program.hex.toList) after ∧
        after.read "lib/.././swap.call" = sampleFiles.read "lib/.././swap.call" := by
  have hpath : outputPath "lib/.././swap.call" = "lib/../swap.calldata" := by decide +kernel
  have hzero : ((run FileTree.access false "callc" ["lib/.././swap.call"]).run
      sampleFiles).1.status = 0 := by decide +kernel
  have hnot : ¬ AsksForHelp ["lib/.././swap.call"] := by
    rintro ⟨first, rest, ⟨⟩, hfirst⟩
    exact absurd hfirst (by decide)
  obtain ⟨⟨outcome, after⟩, hrun⟩ : ∃ final,
      (run FileTree.access false "callc" ["lib/.././swap.call"]).run sampleFiles = final := ⟨_, rfl⟩
  rw [hrun] at hzero
  obtain ⟨hstatus, hdone, -, hinput⟩ :=
    run_allOrNothing false "callc" ["lib/.././swap.call"] sampleFiles hrun
  obtain hhelp | ⟨input, program, ⟨⟩, hbuilds⟩ := hstatus.1 hzero
  · exact absurd hhelp hnot
  · obtain ⟨-, hwritten, hstdout⟩ := hdone _ program rfl hnot hbuilds
    rw [hpath] at hwritten
    exact ⟨hpath, program, outcome, after, hbuilds, hrun, hzero, hstdout, hwritten,
      hinput _ (List.mem_singleton_self _)⟩

end CommandLine

end CallScript
