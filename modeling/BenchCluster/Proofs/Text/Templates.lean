import BenchCluster.Cloud.Command
import BenchCluster.Proofs.Dict
import BenchCluster.Proofs.Text.KeyByKey
import BenchCluster.Remote.Command

/-! # Templates of commands

The commands of clouds and those for hosts are templates that are filled in key after key. They
come out as by one pass over the template, whatever the order of the keys, unless what is put in
makes up placeholders that the template has not had.
-/

namespace BenchCluster

open Text

theorem Text.occurrences_eq_zero_of_contains {text key : String}
    (h : contains text (placeholder key) = false) : occurrences (hole key) text.toList = 0 := by
  by_contra hne
  have hfound : contains text (placeholder key) = true :=
    (occursIn_eq_true_iff (hole_ne_nil key)).2 hne
  rw [h] at hfound
  cases hfound

theorem Vars.keyed {vars : Vars} (h : Unambiguous vars.keys) : Keyed vars.keys vars.entries :=
  ⟨h, List.Subset.refl _, vars.nodup_keys⟩

namespace RemoteCommand

theorem keyed_hostValues (h : Host) : Keyed ["name", "address", "user"] (hostValues h) := by
  refine ⟨unambiguous_of_no_braces ?_, List.Subset.refl _, ?_⟩
  · decide
  · simp [hostValues]

end RemoteCommand

/-- Every part of the keys in their order is filled in as by one pass, for the commands of clouds
and for those of hosts, exactly if no key finds placeholders other than those of the template; and
if none is left after one pass, all orders give what the pass gives. -/
theorem templates_filled_in_one_pass_iff (template : String) :
    (∀ vars : Vars, Unambiguous vars.keys →
      ((∀ part : Vars, part.entries <+: vars.entries →
          part.render template = fillOnce part.entries template) ↔
        FindsOwnOnly vars.entries template) ∧
      ((∀ key ∈ vars.keys,
          contains (fillOnce vars.entries template) (placeholder key) = false) →
        vars.render template = fillOnce vars.entries template ∧
          ∀ order, order.Perm vars.entries → fill order template = vars.render template)) ∧
    ∀ h : Host,
      (FilledInOnePass (RemoteCommand.hostValues h) template ↔
        FindsOwnOnly (RemoteCommand.hostValues h) template) ∧
      (FindsOwnOnly (RemoteCommand.hostValues h) template → ∀ ignoreErrors,
        (RemoteCommand.template template).render h ignoreErrors =
          (RemoteCommand.line (fillOnce (RemoteCommand.hostValues h) template)).render h
            ignoreErrors) ∧
      ((∀ key ∈ ["name", "address", "user"],
          contains (fillOnce (RemoteCommand.hostValues h) template) (placeholder key) = false) →
        ∀ order, order.Perm (RemoteCommand.hostValues h) →
          fill order template = fillOnce (RemoteCommand.hostValues h) template) := by
  constructor
  · intro vars hkeys
    have hkeyed := Vars.keyed hkeys
    have hiff := hkeyed.filledInOnePass_iff template
    refine ⟨?_, fun hnone => ?_⟩
    · rw [← hiff]
      constructor
      -- The first of the keys make a dictionary of their own, since they are sorted.
      · intro hparts before hprefix
        exact hparts ⟨before, vars.sorted.sublist hprefix.sublist⟩ hprefix
      · exact fun hfilled part hprefix => hfilled part.entries hprefix
    · have hzero : ∀ e ∈ vars.entries,
          occurrences (hole e.1) (fillOnce vars.entries template).toList = 0 := fun e he =>
        occurrences_eq_zero_of_contains (hnone e.1 (List.mem_map_of_mem he))
      have hall : ∀ order, order.Perm vars.entries →
          fill order template = fillOnce vars.entries template := fun _ hperm =>
        hkeyed.fill_perm_eq_fillOnce hzero hperm
      have hrender : vars.render template = fillOnce vars.entries template :=
        hall _ (List.Perm.refl _)
      exact ⟨hrender, fun order hperm => (hall order hperm).trans hrender.symm⟩
  · intro h
    have hkeyed := RemoteCommand.keyed_hostValues h
    have hiff := hkeyed.filledInOnePass_iff template
    refine ⟨hiff, fun hown ignoreErrors => ?_, fun hnone order hperm => ?_⟩
    · have hbody := hiff.2 hown _ List.prefix_rfl
      simp only [RemoteCommand.render, RemoteCommand.body, hbody]
    · refine hkeyed.fill_perm_eq_fillOnce (fun e he => ?_) hperm
      exact occurrences_eq_zero_of_contains (hnone e.1 (List.mem_map_of_mem (f := Prod.fst) he))

/-- Values of which one has an opening brace. -/
def Vars.sample : Vars := Dict.ofList [("name", "db_0"), ("region", "us"), ("zone", "\x7bz")]

def Vars.sampleTemplate : String := "run \x7bname\x7d in \x7b\x7bregion\x7d \x7bzone\x7d \x7bid\x7d"

theorem Vars.sample_filled_in_backwards :
    Unambiguous sample.keys ∧
      (∀ key ∈ sample.keys,
        contains (fillOnce sample.entries sampleTemplate) (placeholder key) = false) ∧
      sample.entries.reverse.Perm sample.entries ∧
      fill sample.entries.reverse sampleTemplate = sample.render sampleTemplate ∧
      sample.render sampleTemplate = "run db_0 in \x7bus \x7bz \x7bid\x7d" :=
  have hkeys : Unambiguous sample.keys := unambiguous_of_no_braces (by decide)
  have hnone : ∀ key ∈ sample.keys,
      contains (fillOnce sample.entries sampleTemplate) (placeholder key) = false := by decide
  have hperm := sample.entries.reverse_perm
  have hfilled := ((templates_filled_in_one_pass_iff sampleTemplate).1 sample hkeys).2 hnone
  ⟨hkeys, hnone, hperm, hfilled.2 _ hperm, by decide⟩

/-- The value of the first key makes up the placeholder of the second. -/
example : Vars.render (Dict.ofList [("a", "\x7bb\x7d"), ("b", "x")]) "\x7ba\x7d" = "x" ∧
    fillOnce [("a", "\x7bb\x7d"), ("b", "x")] "\x7ba\x7d" = "\x7bb\x7d" := by
  decide

end BenchCluster
