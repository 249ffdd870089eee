import BenchCluster.Proofs.Config.Layered

/-! # Layers on layers

What layers come to depends on their order and not on how they are grouped. A layer that sets
nothing changes nothing, and laying the same layer on top once more changes nothing either.
-/

namespace BenchCluster

namespace RoleOverrides

namespace Settles

variable {layer other : RoleOverrides} {layers others : List RoleOverrides}

theorem unique (h : layer.Settles layers) (hother : other.Settles layers) : layer = other := by
  have hparameters : layer.parameters = other.parameters :=
    Dict.ext_find? fun key => (h.parameters key).trans (hother.parameters key).symm
  cases layer
  cases other
  simp only [mk.injEq]
  exact ⟨h.implementation.trans hother.implementation.symm, h.count.trans hother.count.symm,
    h.cloud.trans hother.cloud.symm, h.region.trans hother.region.symm,
    h.instanceType.trans hother.instanceType.symm, h.image.trans hother.image.symm,
    h.user.trans hother.user.symm, h.managed.trans hother.managed.symm,
    h.ephemeral.trans hother.ephemeral.symm, h.hosts.trans hother.hosts.symm, hparameters⟩

/-- Only what the layers say matters, field by field. -/
theorem congr (h : layer.Settles layers)
    (hsame : ∀ {α : Type} (field : RoleOverrides → Option α),
      firstSet field layers = firstSet field others) : layer.Settles others where
  implementation := h.implementation.trans (hsame _)
  count := h.count.trans (hsame _)
  cloud := h.cloud.trans (hsame _)
  region := h.region.trans (hsame _)
  instanceType := h.instanceType.trans (hsame _)
  image := h.image.trans (hsame _)
  user := h.user.trans (hsame _)
  managed := h.managed.trans (hsame _)
  ephemeral := h.ephemeral.trans (hsame _)
  hosts := h.hosts.trans (hsame _)
  parameters key := (h.parameters key).trans (hsame _)

theorem nothing : empty.Settles [] := by
  constructor <;> intros <;> rfl

end Settles

theorem firstSet_repeated {α : Type} (field : RoleOverrides → Option α) (layer : RoleOverrides)
    (lower : List RoleOverrides) :
    firstSet field (layer :: layer :: lower) = firstSet field (layer :: lower) := by
  rw [firstSet_cons, firstSet_cons]
  cases field layer <;> rfl

theorem settles_merge (base upper : RoleOverrides) : (base.merge upper).Settles [upper, base] :=
  (Settles.single base).merge upper

theorem merge_assoc (a b c : RoleOverrides) : (a.merge b).merge c = a.merge (b.merge c) :=
  ((settles_merge a b).merge c).unique ((Settles.single a).stack (settles_merge b c))

theorem merge_empty (a : RoleOverrides) : a.merge empty = a :=
  ((Settles.single a).stack .nothing).unique (.single a)

theorem empty_merge (a : RoleOverrides) : empty.merge a = a :=
  (Settles.nothing.merge a).unique (.single a)

theorem merge_merge_self (a b : RoleOverrides) : (a.merge b).merge b = a.merge b :=
  (((settles_merge a b).merge b).congr fun field => firstSet_repeated field b [a]).unique
    (settles_merge a b)

theorem contains_parameters_merge (a b : RoleOverrides) (key : String) :
    (a.merge b).parameters.contains key = true ↔
      a.parameters.contains key = true ∨ b.parameters.contains key = true := by
  rw [Dict.contains, (settles_merge a b).parameters key, firstSet_cons, firstSet_singleton,
    Dict.contains, Dict.contains]
  cases b.parameters.find? key <;> simp

/-- Laying layers on top of each other is an idempotent monoid: layers can be grouped in any way, an
empty layer on either side changes nothing, and a second time changes nothing. Every field and every
parameter is what the upper layer says, or else the lower one, and no parameter is lost. -/
theorem merge_idempotent_monoid (a b c : RoleOverrides) :
    (a.merge b).merge c = a.merge (b.merge c) ∧ a.merge empty = a ∧ empty.merge a = a ∧
      (a.merge b).merge b = a.merge b ∧ (a.merge b).Settles [b, a] ∧
      ∀ key, (a.merge b).parameters.contains key = true ↔
        a.parameters.contains key = true ∨ b.parameters.contains key = true :=
  ⟨merge_assoc a b c, merge_empty a, empty_merge a, merge_merge_self a b, settles_merge a b,
    contains_parameters_merge a b⟩

end RoleOverrides

end BenchCluster
