import KnxVault.Webhook.Mutate

/-!
# The patch and the mutation

When the patch that is sent makes of the submitted document the document of the mutated pod,
with names that are still unique, and asks for nothing when the pod comes again.
-/

namespace KnxVault.Webhook

open KnxVault.Std KnxVault.Domain

/-! ### What the mutation does -/

variable {lib : Library} {pod mutated : Pod}

/-- A pod that is changed asks for secrets which it does not have yet. -/
theorem mutatePod_changed (changed : mutatePod lib pod = .ok (true, mutated)) :
    pod.injects lib = true ∧ pod.secretProvider ≠ "" ∧
      (!hasPrefix pod.mountPath "/" || containsText pod.mountPath "..") = false ∧
      mutated = pod.inject pod.secretProvider pod.mountPath := by
  unfold mutatePod at changed
  split at changed
  · cases changed
  split at changed
  · cases changed
  split at changed
  · cases changed
  split at changed
  · cases changed
  rename_i injects named absolute _
  cases changed
  exact ⟨by simpa using injects, named, by simpa using absolute, rfl⟩

theorem provides_injectedVolume (spc : String) : (injectedVolume spc).provides spc = true := by
  simp [Volume.provides, injectedVolume]

/-- The mutated pod has what it asks for. -/
theorem mutatePod_mutated (changed : mutatePod lib pod = .ok (true, mutated)) :
    mutatePod lib mutated = .ok (false, mutated) := by
  obtain ⟨injects, named, absolute, rfl⟩ := mutatePod_changed changed
  have provided : (pod.inject pod.secretProvider pod.mountPath).volumes.any
      (·.provides pod.secretProvider) = true :=
    List.any_eq_true.mpr ⟨injectedVolume pod.secretProvider, by simp [Pod.inject],
      provides_injectedVolume _⟩
  have injects' : (pod.inject pod.secretProvider pod.mountPath).injects lib = true := injects
  have provider : (pod.inject pod.secretProvider pod.mountPath).secretProvider =
      pod.secretProvider := rfl
  have path : (pod.inject pod.secretProvider pod.mountPath).mountPath = pod.mountPath := rfl
  simp only [mutatePod, injects', provider, path, if_neg named, absolute, provided, if_true,
    Bool.not_true, Bool.false_eq_true, if_false]

/-- The operations of the patch: one for the volume and one for each container. -/
theorem buildJSONPatch_some {patch : List (PatchOp Scalar)}
    (built : buildJSONPatch lib pod = .ok (some patch)) :
    mutatePod lib pod = .ok (true, pod.inject pod.secretProvider pod.mountPath) ∧
      patch = .add "/spec/volumes/-" (injectedVolume pod.secretProvider).json ::
        pod.containers.zipIdx.map fun (_, index) =>
          .add (mountsPath index) (injectedMount pod.mountPath).json := by
  unfold buildJSONPatch at built
  split at built
  · cases built
  · cases built
  · rename_i mutated changed
    obtain ⟨-, -, -, rfl⟩ := mutatePod_changed changed
    refine ⟨changed, ?_⟩
    rw [Except.ok.injEq, Option.some.injEq] at built
    rw [← built]
    simp [Pod.inject, Container.withMount, List.zipIdx_map, List.filterMap_map]

/-! ### Applying the patch -/

theorem pointer_volumes : Json.pointer "/spec/volumes/-" = some ["spec", "volumes", "-"] := by
  rfl

theorem mountsPath_eq (token : String) : "/spec/containers/" ++ token ++ "/volumeMounts/-" =
    String.ofList ('/' :: ['/'].intercalate
      (["spec", "containers", token, "volumeMounts", "-"].map String.toList)) := by
  refine String.toList_inj.mp ?_
  simp [List.intercalate]

theorem pointer_mounts (index : Nat) : Json.pointer (mountsPath index) =
    some ["spec", "containers", toString index, "volumeMounts", "-"] := by
  have digits : (toString index).toList = Nat.toDigits 10 index := String.toList_ofList
  refine (congrArg Json.pointer (mountsPath_eq (toString index))).trans
    (Json.pointer_join (by simp) fun token listed => ?_)
  simp only [List.mem_cons, List.not_mem_nil, or_false] at listed
  rcases listed with rfl | rfl | rfl | rfl | rfl
  · decide
  · decide
  · rw [digits]
    exact ⟨not_mem_toDigits rfl index, not_mem_toDigits rfl index⟩
  · decide
  · decide

theorem arrayMember_nil (name : String) : arrayMember name [] = [] := rfl

theorem arrayMember_of_filled (name : String) {items : List Document} (filled : items ≠ []) :
    arrayMember name items = [(name, .array items)] :=
  if_neg (by simpa using filled)

/-- Appending to the volumes works only where there is one. -/
theorem apply_volume (pod : Pod) (volume : Volume) :
    PatchOp.apply pod.json (.add "/spec/volumes/-" volume.json) =
      if pod.volumes = [] then none
      else some ({ pod with volumes := pod.volumes ++ [volume] } : Pod).json := by
  have inside : Json.add ["volumes", "-"] volume.json pod.specJson =
      if pod.volumes = [] then none
      else some ({ pod with volumes := pod.volumes ++ [volume] } : Pod).specJson := by
    by_cases empty : pod.volumes = []
    · rw [if_pos empty, Pod.specJson, empty, List.map_nil, arrayMember_nil]
      change (List.lookup "volumes" (("containers", _) :: pod.spec)).bind _ = none
      rw [List.lookup_cons, pod.specOther]
      rfl
    · rw [if_neg empty, Pod.specJson, arrayMember_of_filled _ (by simpa using empty),
        Pod.specJson, arrayMember_of_filled _ (by simp), List.map_append]
      rfl
  rw [PatchOp.apply, pointer_volumes, Option.bind_some]
  change (Json.add ["volumes", "-"] volume.json pod.specJson).map _ = _
  rw [inside]
  split
  · rfl
  · rfl

/-- Appending to the mounts of a container works only where there is one. -/
theorem add_mount (container : Container) (mount : VolumeMount) :
    Json.add ["volumeMounts", "-"] mount.json container.json =
      if container.volumeMounts = [] then none else some (container.withMount mount).json := by
  by_cases empty : container.volumeMounts = []
  · rw [if_pos empty, Container.json, empty, List.map_nil, arrayMember_nil]
    change (List.lookup "volumeMounts" container.rest).bind _ = none
    rw [container.restOther]
    rfl
  · rw [if_neg empty, Container.json, arrayMember_of_filled _ (by simpa using empty),
      Container.json, Container.withMount, arrayMember_of_filled _ (by simp), List.map_append]
    rfl

theorem apply_mount {before after : List Container} {container : Container}
    (containers : pod.containers = before ++ container :: after) (mount : VolumeMount) :
    PatchOp.apply pod.json (.add (mountsPath before.length) mount.json) =
      if container.volumeMounts = [] then none
      else some ({ pod with
        containers := before ++ container.withMount mount :: after } : Pod).json := by
  have found : (pod.containers.map Container.json)[before.length]? = some container.json := by
    simp [containers]
  have item := Json.add_item found "volumeMounts" ["-"] mount.json
  rw [add_mount] at item
  have inside : Json.add ["containers", toString before.length, "volumeMounts", "-"] mount.json
      pod.specJson = if container.volumeMounts = [] then none else some ({ pod with
        containers := before ++ container.withMount mount :: after } : Pod).specJson := by
    have member : Json.add ["containers", toString before.length, "volumeMounts", "-"] mount.json
        pod.specJson = (Json.add [toString before.length, "volumeMounts", "-"] mount.json
          (.array (pod.containers.map Container.json))).map fun changed =>
            .object (arrayMember "volumes" (pod.volumes.map Volume.json) ++
              ("containers", changed) :: pod.spec) := by
      by_cases empty : pod.volumes = []
      · rw [Pod.specJson, empty, List.map_nil, arrayMember_nil]
        rfl
      · rw [Pod.specJson, arrayMember_of_filled _ (by simpa using empty)]
        rfl
    rw [member, item]
    split
    · rfl
    · simp [Pod.specJson, containers]
  rw [PatchOp.apply, pointer_mounts, Option.bind_some]
  change (Json.add ["containers", toString before.length, "volumeMounts", "-"] mount.json
    pod.specJson).map _ = _
  rw [inside]
  split
  · rfl
  · rfl

/-- The operations on the containers work only where each has a mount. -/
theorem apply_mounts (mount : VolumeMount) {before after : List Container} :
    ∀ {pod : Pod}, pod.containers = before ++ after →
      applyPatch ((after.zipIdx before.length).map fun (_, index) =>
        .add (mountsPath index) mount.json) pod.json =
      if ∀ container ∈ after, container.volumeMounts ≠ [] then
        some ({ pod with containers := before ++ after.map (·.withMount mount) } : Pod).json
      else none := by
  induction after generalizing before with
  | nil =>
    intro pod containers
    rw [List.append_nil] at containers
    simp [applyPatch, ← containers]
  | cons container after ih =>
    intro pod containers
    rw [List.zipIdx_cons, List.map_cons, applyPatch, List.foldlM_cons, apply_mount containers]
    by_cases empty : container.volumeMounts = []
    · rw [if_pos empty, if_neg fun all => all container List.mem_cons_self empty]
      rfl
    · rw [if_neg empty]
      have rest := @ih (before ++ [container.withMount mount]) { pod with
        containers := before ++ container.withMount mount :: after } (by simp)
      rw [List.length_append, List.length_singleton] at rest
      refine rest.trans ?_
      simp [empty]

/-! ### Unique names -/

/-- The names of the volumes are unique, and so are the paths of the mounts in each
container. -/
def Pod.NamesUnique (pod : Pod) : Prop :=
  (pod.volumes.map Volume.name).Nodup ∧
    ∀ container ∈ pod.containers, (container.volumeMounts.map VolumeMount.mountPath).Nodup

/-- Nothing in the pod has the injected name or lies at the path. -/
def Pod.NamesFree (pod : Pod) (mountPath : String) : Prop :=
  defaultVolumeName ∉ pod.volumes.map Volume.name ∧
    ∀ container ∈ pod.containers, mountPath ∉ container.volumeMounts.map VolumeMount.mountPath

theorem namesUnique_inject (unique : pod.NamesUnique) (spc mountPath : String) :
    (pod.inject spc mountPath).NamesUnique ↔ pod.NamesFree mountPath := by
  obtain ⟨volumes, mounts⟩ := unique
  have appended : ∀ {items : List String} {item : String}, items.Nodup →
      ((items ++ [item]).Nodup ↔ item ∉ items) := by
    intro items item nodup
    rw [← List.concat_eq_append, List.nodup_concat]
    exact and_iff_left nodup
  refine and_congr ?_ ?_
  · change ((pod.volumes ++ [injectedVolume spc]).map Volume.name).Nodup ↔ _
    rw [List.map_append, List.map_singleton]
    exact appended volumes
  · change (∀ container ∈ pod.containers.map _, _) ↔ _
    rw [List.forall_mem_map]
    refine forall₂_congr fun container listed => ?_
    change ((container.volumeMounts ++ [injectedMount mountPath]).map
      VolumeMount.mountPath).Nodup ↔ _
    rw [List.map_append, List.map_singleton]
    exact appended (mounts container listed)

/-! ### The patch -/

/-- The patch makes of the submitted document that of the mutated pod, whose names are still
unique and for which there is no patch. -/
def PatchMutates (lib : Library) (pod mutated : Pod) (patch : List (PatchOp Scalar)) : Prop :=
  applyPatch patch pod.json = some mutated.json ∧ (pod.NamesUnique → mutated.NamesUnique) ∧
    buildJSONPatch lib mutated = .ok none

/-- There are volumes, and mounts in every container, and what is injected is not there
yet. -/
def Pod.Appendable (pod : Pod) : Prop :=
  pod.volumes ≠ [] ∧ (∀ container ∈ pod.containers, container.volumeMounts ≠ []) ∧
    (pod.NamesUnique → pod.NamesFree pod.mountPath)

/-- A patch that is returned does what the mutation does exactly if the pod has a volume and
every container a mount, and the injected name and path are free. -/
theorem patch_mutates_iff {patch : List (PatchOp Scalar)}
    (built : buildJSONPatch lib pod = .ok (some patch)) :
    ∃ mutated, mutatePod lib pod = .ok (true, mutated) ∧
      (PatchMutates lib pod mutated patch ↔ pod.Appendable) := by
  obtain ⟨changed, rfl⟩ := buildJSONPatch_some built
  refine ⟨_, changed, ?_⟩
  have settled : buildJSONPatch lib (pod.inject pod.secretProvider pod.mountPath) = .ok none := by
    rw [buildJSONPatch, mutatePod_mutated changed]
  have unique : (pod.NamesUnique → (pod.inject pod.secretProvider pod.mountPath).NamesUnique) ↔
      (pod.NamesUnique → pod.NamesFree pod.mountPath) :=
    forall_congr' fun unique => namesUnique_inject unique _ _
  have applied : applyPatch (.add "/spec/volumes/-" (injectedVolume pod.secretProvider).json ::
      pod.containers.zipIdx.map fun (_, index) =>
        .add (mountsPath index) (injectedMount pod.mountPath).json) pod.json =
      some (pod.inject pod.secretProvider pod.mountPath).json ↔
        pod.volumes ≠ [] ∧ ∀ container ∈ pod.containers, container.volumeMounts ≠ [] := by
    rw [applyPatch, List.foldlM_cons, apply_volume]
    by_cases empty : pod.volumes = []
    · rw [if_pos empty]
      exact iff_of_false nofun fun filled => filled.1 empty
    · rw [if_neg empty, and_iff_right empty]
      have mounts := @apply_mounts (injectedMount pod.mountPath) [] pod.containers { pod with
        volumes := pod.volumes ++ [injectedVolume pod.secretProvider] } rfl
      have same : ({ pod with
          volumes := pod.volumes ++ [injectedVolume pod.secretProvider]
          containers := [] ++ pod.containers.map (·.withMount (injectedMount pod.mountPath)) } :
            Pod) = pod.inject pod.secretProvider pod.mountPath := rfl
      rw [same] at mounts
      refine (Eq.congr_left mounts).trans ?_
      generalize (pod.inject pod.secretProvider pod.mountPath).json = document
      split
      · rename_i mounted
        exact iff_of_true rfl mounted
      · rename_i unmounted
        exact iff_of_false nofun unmounted
  rw [PatchMutates, applied, unique, Pod.Appendable, and_iff_left settled, and_assoc]

/-! ### Samples -/

def sampleAnnotations : StringMap :=
  ((∅ : StringMap).insert annotationInject " True ").insert annotationSecretProvider "app-db"

/-- A pod with one container and, if it has any, a token volume that is mounted. -/
def samplePod (token : Bool) : Pod where
  annotations := sampleAnnotations
  volumes := if token then [{ name := "token" }] else []
  containers := [{
    volumeMounts := if token then [{ name := "token", mountPath := "/var/run/token" }] else []
    rest := [("name", textJson "app")] }]

/-- The patch of the sample pod. -/
def samplePatch : List (PatchOp Scalar) :=
  [.add "/spec/volumes/-" (injectedVolume "app-db").json,
    .add (mountsPath 0) (injectedMount defaultMountPath).json]

theorem built_samplePatch (token : Bool) :
    buildJSONPatch .sample (samplePod token) = .ok (some samplePatch) := by
  have changed : mutatePod .sample (samplePod token) =
      .ok (true, (samplePod token).inject "app-db" defaultMountPath) := by
    cases token <;> rfl
  rw [buildJSONPatch, changed]
  cases token <;> rfl

/-- A pod with a volume and a mount is patched as it is mutated. -/
theorem patch_mutates_mounted : ∃ mutated,
    mutatePod .sample (samplePod true) = .ok (true, mutated) ∧
      PatchMutates .sample (samplePod true) mutated samplePatch := by
  obtain ⟨mutated, changed, exact⟩ := patch_mutates_iff (built_samplePatch true)
  refine ⟨mutated, changed, exact.mpr ⟨by simp [samplePod], by simp [samplePod], fun _ => ?_⟩⟩
  have path : (samplePod true).mountPath = defaultMountPath := rfl
  rw [path]
  refine ⟨by decide, fun container listed => ?_⟩
  obtain rfl := List.mem_singleton.mp listed
  decide

/-- A pod without volumes and mounts: the patch cannot be applied. -/
theorem patch_fails_bare :
    buildJSONPatch .sample (samplePod false) = .ok (some samplePatch) ∧
      applyPatch samplePatch (samplePod false).json = none := by
  have bare : (samplePod false).volumes = [] := rfl
  refine ⟨built_samplePatch false, ?_⟩
  rw [applyPatch, samplePatch, List.foldlM_cons, apply_volume, if_pos bare]
  rfl

end KnxVault.Webhook
