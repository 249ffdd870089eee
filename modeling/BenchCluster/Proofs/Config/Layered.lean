import BenchCluster.Proofs.Config.Region

/-! # What the layers of a role say

The fields of a role are set by its own table, by the defaults of the implementation and by those of
its cloud. The first of these layers that sets a field decides it, and parameters are decided key by
key. A role is planned as its layers say, unless one of four things is wrong with them.
-/

namespace BenchCluster

namespace RoleOverrides

/-- What the first layer that sets a field says. -/
def firstSet {α : Type} (field : RoleOverrides → Option α) (layers : List RoleOverrides) :
    Option α :=
  layers.findSome? field

variable {α : Type} {field : RoleOverrides → Option α}

theorem firstSet_append (upper lower : List RoleOverrides) :
    firstSet field (upper ++ lower) = (firstSet field upper <|> firstSet field lower) := by
  rw [firstSet, firstSet, firstSet, List.findSome?_append]
  cases List.findSome? field upper <;> rfl

theorem firstSet_cons (layer : RoleOverrides) (lower : List RoleOverrides) :
    firstSet field (layer :: lower) = (field layer <|> firstSet field lower) := by
  rw [firstSet, List.findSome?_cons]
  cases field layer <;> rfl

theorem firstSet_singleton (layer : RoleOverrides) : firstSet field [layer] = field layer := by
  rw [firstSet_cons]
  cases field layer <;> rfl

/-- A layer says what other layers say together. -/
structure Settles (layer : RoleOverrides) (layers : List RoleOverrides) : Prop where
  implementation : layer.implementation = firstSet RoleOverrides.implementation layers
  count : layer.count = firstSet RoleOverrides.count layers
  cloud : layer.cloud = firstSet RoleOverrides.cloud layers
  region : layer.region = firstSet RoleOverrides.region layers
  instanceType : layer.instanceType = firstSet RoleOverrides.instanceType layers
  image : layer.image = firstSet RoleOverrides.image layers
  user : layer.user = firstSet RoleOverrides.user layers
  managed : layer.managed = firstSet RoleOverrides.managed layers
  ephemeral : layer.ephemeral = firstSet RoleOverrides.ephemeral layers
  hosts : layer.hosts = firstSet RoleOverrides.hosts layers
  parameters : ∀ key,
    layer.parameters.find? key = firstSet (fun layer => layer.parameters.find? key) layers

namespace Settles

theorem single (layer : RoleOverrides) : layer.Settles [layer] := by
  constructor <;> simp only [firstSet_singleton, implies_true]

/-- What is laid on top comes first. -/
theorem stack {base upper : RoleOverrides} {lower layers : List RoleOverrides}
    (h : base.Settles lower) (hupper : upper.Settles layers) :
    (base.merge upper).Settles (layers ++ lower) where
  implementation := by rw [firstSet_append, ← hupper.implementation, ← h.implementation]; rfl
  count := by rw [firstSet_append, ← hupper.count, ← h.count]; rfl
  cloud := by rw [firstSet_append, ← hupper.cloud, ← h.cloud]; rfl
  region := by rw [firstSet_append, ← hupper.region, ← h.region]; rfl
  instanceType := by rw [firstSet_append, ← hupper.instanceType, ← h.instanceType]; rfl
  image := by rw [firstSet_append, ← hupper.image, ← h.image]; rfl
  user := by rw [firstSet_append, ← hupper.user, ← h.user]; rfl
  managed := by rw [firstSet_append, ← hupper.managed, ← h.managed]; rfl
  ephemeral := by rw [firstSet_append, ← hupper.ephemeral, ← h.ephemeral]; rfl
  hosts := by rw [firstSet_append, ← hupper.hosts, ← h.hosts]; rfl
  parameters := fun key => by
    rw [firstSet_append, ← hupper.parameters key, ← h.parameters key]
    exact Dict.find?_union _ _ key

theorem merge {base : RoleOverrides} {layers : List RoleOverrides} (h : base.Settles layers)
    (upper : RoleOverrides) : (base.merge upper).Settles (upper :: layers) :=
  h.stack (single upper)

end Settles

/-- What keeps a role from being planned, as the error says: no cloud is chosen, it is not defined, no
region is set, or no hosts are listed for a role that is not managed. Of several things wrong with a
role the first one counts. -/
inductive Fault (clouds : Dict CloudConfig) (role : String) (table defaults : RoleOverrides) :
    ConfigError → Prop
  | cloudless (unset : firstSet cloud [table, defaults] = none) :
      Fault clouds role table defaults (.missingField role "cloud")
  | undefined {name : String} (chosen : firstSet cloud [table, defaults] = some name)
      (unknown : clouds.find? name = none) :
      Fault clouds role table defaults (.unknownCloud role name)
  | regionless {name : String} {config : CloudConfig}
      (chosen : firstSet cloud [table, defaults] = some name)
      (known : clouds.find? name = some config)
      (unset : firstSet region [table, defaults, config.defaults] = none) :
      Fault clouds role table defaults (.missingField role "region")
  | hostless {name : String} {config : CloudConfig}
      (chosen : firstSet cloud [table, defaults] = some name)
      (known : clouds.find? name = some config)
      (located : (firstSet region [table, defaults, config.defaults]).isSome = true)
      (unmanaged : firstSet managed [table, defaults, config.defaults] = some false)
      (unlisted : (firstSet hosts [table, defaults, config.defaults]).getD [] = []) :
      Fault clouds role table defaults (.noHosts role)

end RoleOverrides

open RoleOverrides (firstSet)

/-- The parameters of a role in a cloud are what the first of its layers to set them says, and
otherwise the role runs its own implementation once, on managed machines without hosts of its own,
for the user of the cloud. -/
structure ComponentParams.Follows (params : ComponentParams) (role : String) (config : CloudConfig)
    (layers : List RoleOverrides) : Prop where
  implementation : params.implementation = (firstSet RoleOverrides.implementation layers).getD role
  role : params.role = role
  count : params.count = (firstSet RoleOverrides.count layers).getD 1
  region : firstSet RoleOverrides.region layers = some params.region
  instanceType : params.instanceType = firstSet RoleOverrides.instanceType layers
  image : params.image = firstSet RoleOverrides.image layers
  user : params.user = (firstSet RoleOverrides.user layers <|> config.user)
  managed : params.managed = (firstSet RoleOverrides.managed layers).getD true
  ephemeral : params.ephemeral = (firstSet RoleOverrides.ephemeral layers).getD false
  hosts : params.hosts = (firstSet RoleOverrides.hosts layers).getD []
  parameters : ∀ key, params.parameter key =
    firstSet (fun layer => layer.parameters.find? key) layers

namespace RoleOverrides

/-- A role is planned: its cloud is chosen and defined, its parameters follow the layers, and it has
machines to run on. Its environment is that of the cloud and the region. -/
structure Yields (clouds : Dict CloudConfig) (role : String) (table defaults : RoleOverrides)
    (config : CloudConfig) (env : Environment) (params : ComponentParams) : Prop where
  chosen : firstSet cloud [table, defaults] = some params.cloud
  known : clouds.find? params.cloud = some config
  follows : params.Follows role config [table, defaults, config.defaults]
  provided : params.managed = true ∨ params.hosts ≠ []
  env : env = .ofRegion params.cloud config.client params.region

end RoleOverrides

namespace Documents

open RoleOverrides

variable {clouds : Dict CloudConfig} {role : String} {table defaults : RoleOverrides}

/-- The merged fields of a role are completed to its parameters as the layers say, if a region is set
and there are machines. -/
theorem componentParams_eq_ok_iff {name : String} {config : CloudConfig} {merged : RoleOverrides}
    {layers : List RoleOverrides} (h : merged.Settles layers) {params : ComponentParams} :
    componentParams role name config merged = .ok params ↔
      params.cloud = name ∧ params.Follows role config layers ∧
        (params.managed = true ∨ params.hosts ≠ []) := by
  rw [componentParams]
  constructor
  · intro hparams
    split at hparams
    · cases hparams
    rename_i region hregion
    dsimp only at hparams
    split at hparams
    · cases hparams
    rename_i hprovided
    rw [h.managed, h.hosts] at hprovided
    cases hparams
    refine ⟨rfl, ⟨by rw [h.implementation], rfl, by rw [h.count], by rw [← h.region, hregion],
      h.instanceType, h.image, by rw [h.user], by rw [h.managed], by rw [h.ephemeral],
      by rw [h.hosts], h.parameters⟩, ?_⟩
    rw [h.managed, h.hosts]
    by_cases hmanaged : (firstSet RoleOverrides.managed layers).getD true
    · exact .inl hmanaged
    · simp only [hmanaged] at hprovided
      exact .inr (by simpa using hprovided)
  · rintro ⟨hname, hfollows, hprovided⟩
    rw [h.region, hfollows.region]
    have hlisted : ¬ (!merged.managed.getD true && (merged.hosts.getD []).isEmpty) = true := by
      rw [h.managed, h.hosts, ← hfollows.managed, ← hfollows.hosts]
      rcases hprovided with hmanaged | hhosts
      · simp [hmanaged]
      · simp [hhosts]
    have hparameters : merged.parameters = params.parameters :=
      Dict.ext_find? fun key => (h.parameters key).trans (hfollows.parameters key).symm
    dsimp only
    rw [if_neg hlisted, h.implementation, h.count, h.instanceType, h.image, h.user, h.managed,
      h.ephemeral, h.hosts, hparameters, ← hfollows.implementation, ← hfollows.count,
      ← hfollows.instanceType, ← hfollows.image, ← hfollows.user, ← hfollows.managed,
      ← hfollows.ephemeral, ← hfollows.hosts, ← hname, ← hfollows.role]

theorem componentParams_eq_error_iff {name : String} {config : CloudConfig} {merged : RoleOverrides}
    {layers : List RoleOverrides} (h : merged.Settles layers) {e : ConfigError} :
    componentParams role name config merged = .error e ↔
      (firstSet region layers = none ∧ e = .missingField role "region") ∨
      ((firstSet region layers).isSome = true ∧ firstSet managed layers = some false ∧
        (firstSet hosts layers).getD [] = [] ∧ e = .noHosts role) := by
  rw [componentParams, ← h.region, ← h.managed, ← h.hosts]
  cases merged.region with
  | none => simp [@eq_comm _ e]
  | some region =>
    dsimp only
    split
    · rename_i hbare
      rw [Bool.and_eq_true, Bool.not_eq_true', List.isEmpty_iff] at hbare
      obtain ⟨hmanaged, hhosts⟩ := hbare
      have hunmanaged : merged.managed = some false := by
        cases hset : merged.managed with
        | none =>
          rw [hset] at hmanaged
          cases hmanaged
        | some b =>
          rw [hset, Option.getD_some] at hmanaged
          rw [hmanaged]
      simp [hunmanaged, hhosts, @eq_comm _ e]
    · rename_i hprovided
      refine iff_of_false (by simp) ?_
      rintro (⟨hregion, -⟩ | ⟨-, hmanaged, hhosts, -⟩)
      · cases hregion
      · rw [hmanaged, hhosts] at hprovided
        exact hprovided rfl

theorem settles_chosen (table defaults : RoleOverrides) :
    (defaults.merge table).Settles [table, defaults] :=
  (Settles.single defaults).merge table

theorem settles_all (table defaults base : RoleOverrides) :
    ((base.merge defaults).merge table).Settles [table, defaults, base] :=
  ((Settles.single base).merge defaults).merge table

/-- A role is planned exactly as its layers say. -/
theorem planRole_eq_ok_iff {env : Environment} {params : ComponentParams} :
    planRole clouds defaults role table = .ok (env, params) ↔
      ∃ config, Yields clouds role table defaults config env params := by
  rw [planRole_eq_ok, (settles_chosen table defaults).cloud]
  constructor
  · rintro ⟨hchosen, config, hknown, hparams, henv⟩
    obtain ⟨-, hfollows, hprovided⟩ := (componentParams_eq_ok_iff (settles_all _ _ _)).1 hparams
    exact ⟨config, hchosen, hknown, hfollows, hprovided, henv⟩
  · rintro ⟨config, h⟩
    exact ⟨h.chosen, config, h.known,
      (componentParams_eq_ok_iff (settles_all _ _ _)).2 ⟨rfl, h.follows, h.provided⟩, h.env⟩

/-- A role is not planned exactly if something is wrong with it. -/
theorem planRole_eq_error_iff {e : ConfigError} :
    planRole clouds defaults role table = .error e ↔ Fault clouds role table defaults e := by
  rw [planRole, (settles_chosen table defaults).cloud]
  cases hchosen : firstSet cloud [table, defaults] with
  | none =>
    constructor
    · rintro ⟨⟩
      exact .cloudless hchosen
    · rintro (_ | ⟨hother, _⟩ | ⟨hother, _, _⟩ | ⟨hother, _, _, _, _⟩)
      · rfl
      all_goals cases hchosen.symm.trans hother
  | some name =>
    dsimp only
    cases hknown : clouds.find? name with
    | none =>
      constructor
      · rintro ⟨⟩
        exact .undefined hchosen hknown
      · rintro (hunset | ⟨hother, _⟩ | ⟨hother, hfound, _⟩ | ⟨hother, hfound, _, _, _⟩)
        · cases hchosen.symm.trans hunset
        · rw [Option.some.inj (hchosen.symm.trans hother)]
        all_goals
          rw [← Option.some.inj (hchosen.symm.trans hother), hknown] at hfound
          cases hfound
    | some config =>
      dsimp only
      rw [Fallible.bind_eq_error, componentParams_eq_error_iff (settles_all table defaults _)]
      constructor
      · rintro ((⟨hregion, rfl⟩ | ⟨hregion, hmanaged, hhosts, rfl⟩) | ⟨_, -, hpure⟩)
        · exact .regionless hchosen hknown hregion
        · exact .hostless hchosen hknown hregion hmanaged hhosts
        · cases hpure
      · rintro (hunset | ⟨hother, hmissing⟩ | ⟨hother, hfound, hregion⟩ |
          ⟨hother, hfound, hregion, hmanaged, hhosts⟩)
        · cases hchosen.symm.trans hunset
        all_goals rw [← Option.some.inj (hchosen.symm.trans hother), hknown] at *
        · cases hmissing
        · cases hfound
          exact .inl (.inl ⟨hregion, rfl⟩)
        · cases hfound
          exact .inl (.inr ⟨hregion, hmanaged, hhosts, rfl⟩)

end Documents

end BenchCluster
