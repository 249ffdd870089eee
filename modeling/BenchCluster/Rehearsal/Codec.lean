import BenchCluster.Rehearsal.Stage

/-! # The written form of rehearsals

A stage and the rules for its faults as records. An action is a word, or a table with the fields of
what is to happen.
-/

namespace BenchCluster.Rehearsal

def CloudFault.decode : Decoder CloudFault
  | .text "none" => some .noMachine
  | .text "timeout" => some .timeout
  | .text "interrupt" => some .interrupt
  | .bool answer => some (.running answer)
  | d => do
    let r ← Record.read? false ["fail", "stderr", "machine", "volume"] d
    match r.field "fail", r.field "machine", r.field "volume" with
    | .given status, _, _ =>
      return .fail (← Decoder.optional .signed status) (← r.withDefault "stderr" .text "")
    | _, .given (.table fields), _ => return .machine fields
    | _, _, .given (.table fields) => return .volume fields
    | _, _, _ => none

def DelayedFault.decode : Decoder DelayedFault
  | .text "hang" => some { fault := .hang }
  | .text "spawn" => some { fault := .spawn }
  | .text "io" => some { fault := .io }
  | .text "missing" => some { fault := .missing }
  | .text "interrupt" => some { fault := .interrupt }
  | d => do
    let r ← Record.read? false ["delay_ms", "exit", "stdout", "stderr", "connection"] d
    let delay := Duration.ofMillis (← r.withDefault "delay_ms" .natural 0)
    match r.field "exit", r.field "connection" with
    | .given status, _ =>
      let output : CommandOutput :=
        { exitStatus := ← Decoder.optional .signed status
          stdout := ← r.withDefault "stdout" .text ""
          stderr := ← r.withDefault "stderr" .text "" }
      return { delay := delay, fault := .output output }
    | _, .given (.text message) => return { delay := delay, fault := .connection message }
    | _, _ => return { delay := delay, fault := .goOn }

def CountedRule.decode {α : Type} (decode : Decoder α) : Decoder (CountedRule α) := fun d => do
  let r ← Record.read? false ["call", "name", "contains", "times", "do"] d
  let rule : FaultRule α := {
    call := ← r.optional "call" .text
    name := ← r.optional "name" .text
    contains := ← r.optional "contains" .text
    times := ← r.optional "times" .natural
    action := ← r.required "do" decode }
  return ⟨rule, ∅⟩

/-- Reads the rules of a list that are meant for the clouds or for the hosts. -/
def CountedRule.decodeFor {α : Type} (party : String) (decode : Decoder α) :
    Decoder (List (CountedRule α))
  | .list rules =>
    (rules.filter fun d => (d.get? "on").bind Decoder.text = some party).mapM
      (CountedRule.decode decode)
  | _ => none

namespace HostCall

def encode : HostCall → Data
  | .exec host elevated script =>
    .table [("to", .text host), ("sudo", .bool elevated), ("script", .text script)]
  | .copy host source target =>
    .table [("to", .text host), ("local", .text source), ("remote", .text target)]

end HostCall

namespace Stage

/-- Adds a program made of the body of a shell script. -/
def addProgram (files : FileTree) (name body : String) : FileTree :=
  (files.addDirectory Shell.programDirectory).attempt
    (·.writeProgram (joinPath Shell.programDirectory name) ("#!/bin/sh\n" ++ body ++ "\n"))

def withFaults? (s : Stage) (faults : Data) : Option Stage := do
  return { s with
    cloudRules := ← CountedRule.decodeFor "cloud" CloudFault.decode faults
    remoteRules := ← CountedRule.decodeFor "remote" DelayedFault.decode faults }

def decode : Decoder Stage := fun d => do
  let r ← Record.read? false ["files", "dirs", "programs", "env", "isolated_path", "faults"] d
  let contents ← r.withDefault "files" (.dict .text) ∅
  let directories ← r.withDefault "dirs" (.list .text) []
  let bodies ← r.withDefault "programs" (.dict .text) ∅
  let files := contents.entries.foldl (fun files e => files.addFile e.1 (Text.encode e.2)) .empty
  let files := directories.foldl FileTree.addDirectory files
  let stage : Stage := {
    files := bodies.entries.foldl (fun files e => addProgram files e.1 e.2) files
    bindings := ← r.withDefault "env" (.dict .text) ∅
    bare := ← r.withDefault "isolated_path" .bool false }
  match r.field "faults" with
  | .given faults => stage.withFaults? faults
  | _ => return stage

end Stage

end BenchCluster.Rehearsal
