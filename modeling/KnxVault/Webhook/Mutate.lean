import KnxVault.Domain.Common
import KnxVault.Std.JsonPatch

/-!
# Pods that ask for secrets

`internal/webhook/mutate.go`: a pod with the annotation gets a volume of the Secrets Store
CSI driver and a mount of it in every container. The answer to the API server is a patch
that is written beside the mutation and appends to arrays; empty arrays are not members of
the submitted document.
-/

namespace KnxVault.Webhook

open KnxVault.Std KnxVault.Domain

inductive Scalar where
  | null
  | bool (flag : Bool)
  | number (text : String)
  | string (text : String)

abbrev Document := Json Scalar

abbrev Members := List (String × Document)

def annotationInject : String := "knxvault.io/inject"

def annotationSecretProvider : String := "knxvault.io/secret-provider-class"

def annotationMountPath : String := "knxvault.io/inject-mount-path"

def defaultMountPath : String := "/mnt/knxvault-secrets"

def csiDriverName : String := "secrets-store.csi.k8s.io"

def defaultVolumeName : String := "knxvault-secrets"

/-! ### Pods

The fields that the webhook does not look at are kept as members of the document. -/

structure CSIVolumeSource where
  driver : String
  readOnly : Option Bool := none
  volumeAttributes : StringMap := ∅
  rest : Members := []

structure Volume where
  name : String
  csi : Option CSIVolumeSource := none
  rest : Members := []

structure VolumeMount where
  name : String
  readOnly : Bool := false
  mountPath : String
  rest : Members := []

structure Container where
  volumeMounts : List VolumeMount := []
  rest : Members := []
  restOther : rest.lookup "volumeMounts" = none := by rfl

structure Pod where
  annotations : StringMap := ∅
  volumes : List Volume := []
  containers : List Container := []
  metadata : Members := []
  spec : Members := []
  specOther : spec.lookup "volumes" = none := by rfl
  rest : Members := []

/-! ### Their documents -/

def textJson (text : String) : Document := .scalar (.string text)

def flagJson (flag : Bool) : Document := .scalar (.bool flag)

def mapJson (texts : StringMap) : Document :=
  .object (texts.toList.map fun (key, text) => (key, textJson text))

/-- A member that is left out if it is empty. -/
def arrayMember (name : String) (items : List Document) : Members :=
  if items.isEmpty then [] else [(name, .array items)]

def mapMember (name : String) (texts : StringMap) : Members :=
  if texts.isEmpty then [] else [(name, mapJson texts)]

def CSIVolumeSource.json (source : CSIVolumeSource) : Document :=
  .object (("driver", textJson source.driver) ::
    (source.readOnly.toList.map fun flag => ("readOnly", flagJson flag)) ++
    mapMember "volumeAttributes" source.volumeAttributes ++ source.rest)

def Volume.json (volume : Volume) : Document :=
  .object (("name", textJson volume.name) ::
    (volume.csi.toList.map fun source => ("csi", source.json)) ++ volume.rest)

def VolumeMount.json (mount : VolumeMount) : Document :=
  .object (("name", textJson mount.name) ::
    (if mount.readOnly then [("readOnly", flagJson true)] else []) ++
    ("mountPath", textJson mount.mountPath) :: mount.rest)

def Container.json (container : Container) : Document :=
  .object (arrayMember "volumeMounts" (container.volumeMounts.map VolumeMount.json) ++
    container.rest)

def Pod.specJson (pod : Pod) : Document :=
  .object (arrayMember "volumes" (pod.volumes.map Volume.json) ++
    ("containers", .array (pod.containers.map Container.json)) :: pod.spec)

def Pod.json (pod : Pod) : Document :=
  .object (("metadata", .object (mapMember "annotations" pod.annotations ++ pod.metadata)) ::
    ("spec", pod.specJson) :: pod.rest)

/-! ### The mutation -/

namespace Pod

variable (lib : Library) (pod : Pod)

def annotation (key : String) : String := (pod.annotations[key]?).getD ""

/-- Whether the pod asks for secrets. -/
def injects : Bool :=
  String.ofList ((trimSpace (pod.annotation annotationInject)).toList.map lib.toLower) = "true"

def secretProvider : String := trimSpace (pod.annotation annotationSecretProvider)

def mountPath : String :=
  let given := trimSpace (pod.annotation annotationMountPath)
  if given = "" then defaultMountPath else given

end Pod

/-- A volume of the driver for the class. -/
def Volume.provides (volume : Volume) (spc : String) : Bool :=
  volume.csi.any fun source => source.driver = csiDriverName &&
    (source.volumeAttributes["secretProviderClass"]?).getD "" = spc

def injectedVolume (spc : String) : Volume where
  name := defaultVolumeName
  csi := some {
    driver := csiDriverName
    readOnly := some true
    volumeAttributes := (∅ : StringMap).insert "secretProviderClass" spc }

def injectedMount (mountPath : String) : VolumeMount where
  name := defaultVolumeName
  mountPath := mountPath
  readOnly := true

def Container.withMount (container : Container) (mount : VolumeMount) : Container :=
  { container with volumeMounts := container.volumeMounts ++ [mount] }

def Pod.inject (pod : Pod) (spc mountPath : String) : Pod :=
  { pod with
    volumes := pod.volumes ++ [injectedVolume spc]
    containers := pod.containers.map (·.withMount (injectedMount mountPath)) }

/-- The pod afterwards, and whether it has been changed. -/
def mutatePod (lib : Library) (pod : Pod) : Except String (Bool × Pod) :=
  if !pod.injects lib then .ok (false, pod)
  else if pod.secretProvider = "" then
    .error (annotationSecretProvider ++ " annotation is required when " ++ annotationInject ++
      "=true")
  else if !hasPrefix pod.mountPath "/" || containsText pod.mountPath ".." then
    .error (annotationMountPath ++ " must be an absolute path without .. segments")
  else if pod.volumes.any (·.provides pod.secretProvider) then .ok (false, pod)
  else .ok (true, pod.inject pod.secretProvider pod.mountPath)

/-- The place behind the mounts of a container. -/
def mountsPath (index : Nat) : String :=
  "/spec/containers/" ++ toString index ++ "/volumeMounts/-"

def buildJSONPatch (lib : Library) (pod : Pod) :
    Except String (Option (List (PatchOp Scalar))) :=
  match mutatePod lib pod with
  | .error err => .error err
  | .ok (false, _) => .ok none
  | .ok (true, mutated) => .ok (some (
      (mutated.volumes.getLast?.toList.map fun volume => .add "/spec/volumes/-" volume.json) ++
        mutated.containers.zipIdx.filterMap fun (container, index) =>
          container.volumeMounts.getLast?.map fun mount => .add (mountsPath index) mount.json))

end KnxVault.Webhook
