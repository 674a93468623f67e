import KnxVault.Inject.Render

/-!
# Mounting secrets through the CSI driver

`internal/inject/csi`: the parameters of a mount request name objects, each of which
becomes a file in the volume of the pod. File names that are given are checked, others are
derived from the path. Decoding JSON and YAML is a parameter, as are the calls to the vault;
the report of the mount to the audit log, whose errors are dropped, is left out.
-/

namespace KnxVault.Inject.Csi

open KnxVault.Std KnxVault.Domain

structure ObjectSpec where
  path : String
  fileName : String := ""
  objectType : String := ""
deriving DecidableEq

structure MountConfig where
  vaultAddr : String
  role : String
  objects : List ObjectSpec
  podName : String
  «namespace» : String
  serviceAccount : String
  saToken : String

/-- The decoders of the standard library and of the YAML package. -/
structure Decoders where
  unmarshalMap : String → Except String StringMap
  unmarshalObjects : String → Except String (List ObjectSpec)

def attrPodName : String := "csi.storage.k8s.io/pod.name"

def attrPodNamespace : String := "csi.storage.k8s.io/pod.namespace"

def attrPodSA : String := "csi.storage.k8s.io/serviceAccount.name"

def attrSAToken : String := "csi.storage.k8s.io/serviceAccount.tokens"

/-! ### Parameters of a mount -/

def sanitizeFileName (path : String) : String :=
  let name := replaceAll [("..", "_")] (replaceAll [("/", "_")] (trimPrefix path "/"))
  if name = "" then "secret" else name

def sanitizeMountFileName (given : String) : Except String String :=
  let name := trimSpace given
  if name = "" then .error "fileName is required"
  else if containsText name ".." ∨ containsText name "/" ∨ containsText name "\\" then
    .error "fileName must be a basename without path separators or parent segments"
  else if name = "." then .error "invalid fileName"
  else .ok name

/-- The path of an object as it is read. -/
def ObjectSpec.readPath (object : ObjectSpec) : String := trimPrefix (trimSpace object.path) "/"

def ObjectSpec.mountName (object : ObjectSpec) : Except String String :=
  if object.fileName = "" then .ok (sanitizeFileName object.readPath)
  else sanitizeMountFileName object.fileName

def parseObject (object : ObjectSpec) : Except String ObjectSpec := do
  if object.readPath = "" then .error "object path is required"
  else if containsText object.readPath ".." then
    .error "object path must not contain parent segments"
  else
    let fileName ← object.mountName
    pure {
      path := object.readPath, fileName
      objectType := if object.objectType = "" then "secret" else object.objectType }

variable (decoders : Decoders)

def unmarshalJSONMap (raw : String) : Except String StringMap :=
  if trimSpace raw = "" then .ok ∅ else decoders.unmarshalMap raw

/-- The token of the service account; the last place that has one counts. -/
def serviceAccountToken (attrs : StringMap) (secretsJSON : String) : String :=
  let given :=
    if secretsJSON = "" then ""
    else match unmarshalJSONMap decoders secretsJSON with
      | .error _ => ""
      | .ok secrets =>
        let listed := trimSpace (secrets.getD attrSAToken "")
        if listed = "" then trimSpace (secrets.getD "serviceAccountToken" "") else listed
  if given = "" then trimSpace (attrs.getD attrSAToken "") else given

def parseMountConfig (attributesJSON secretsJSON : String) : Except String MountConfig := do
  let attrs ← (unmarshalJSONMap decoders attributesJSON).mapError ("parse attributes: " ++ ·)
  let text (name : String) := trimSpace (attrs.getD name "")
  if text "role" = "" then .error "role parameter is required"
  else if text "objects" = "" then .error "objects parameter is required"
  else
    let objects ← (decoders.unmarshalObjects (text "objects")).mapError
      ("parse objects yaml: " ++ ·)
    if objects = [] then .error "at least one object is required"
    else
      let objects ← objects.mapM parseObject
      pure {
        vaultAddr := if text "vaultAddr" = "" then
            "https://knxvault.knxvault.svc.cluster.local:8200" else text "vaultAddr"
        role := text "role", objects
        podName := text attrPodName, «namespace» := text attrPodNamespace
        serviceAccount := text attrPodSA
        saToken := serviceAccountToken decoders attrs secretsJSON }

/-! ### Mounting -/

structure VaultClient where
  loginKubernetes : (addr role jwt : String) → Except String String
  readKV : (addr token path : String) → Except String (Fields × Int)

structure ObjectVersion where
  id : String
  version : String
deriving DecidableEq

structure File where
  path : String
  mode : Nat
  contents : String
deriving DecidableEq

structure MountRequest where
  attributes : String
  secrets : String
  currentObjectVersion : List ObjectVersion

structure MountResponse where
  objectVersion : List ObjectVersion := []
  files : List File := []
deriving DecidableEq

variable (printing : Printing) (range : MapRange) (client : VaultClient)

/-- The objects in turn; `rotations` counts the versions that have changed. -/
def mountEach (addr token : String) (current : StringMap) :
    MountResponse → Nat → List ObjectSpec → Except String MountResponse × Nat
  | response, rotations, [] => (.ok response, rotations)
  | response, rotations, object :: rest =>
    match client.readKV addr token object.path with
    | .error err => (.error ("read " ++ object.path ++ ": " ++ err), rotations)
    | .ok (data, version) =>
      let id := trimSpace object.fileName
      let previous := current.getD id ""
      mountEach addr token current {
          objectVersion := response.objectVersion ++ [⟨id, toString version⟩]
          files := response.files ++
            [⟨object.fileName, 0o400, flattenSecret printing range data⟩] }
        (if previous ≠ "" ∧ previous ≠ toString version then (rotations + 1) % 2 ^ 64
          else rotations)
        rest

def mount (rotations : Nat) (req : MountRequest) : Except String MountResponse × Nat :=
  match parseMountConfig decoders req.attributes req.secrets with
  | .error err => (.error err, rotations)
  | .ok cfg =>
    if cfg.saToken = "" then
      (.error "service account token missing from mount request", rotations)
    else match client.loginKubernetes cfg.vaultAddr cfg.role cfg.saToken with
      | .error err => (.error ("kubernetes login: " ++ err), rotations)
      | .ok token =>
        let current := req.currentObjectVersion.foldl
          (fun (seen : StringMap) entry => seen.insert entry.id entry.version) ∅
        mountEach printing range client cfg.vaultAddr token current {} rotations cfg.objects

/-! ### What a mount consists of -/

variable {decoders printing range client}

theorem mountEach_ok {addr token : String} {current : StringMap} {objects : List ObjectSpec}
    {before response : MountResponse} {rotations later : Nat}
    (mounted : mountEach printing range client addr token current before rotations objects =
      (.ok response, later)) :
    response.files.map File.path =
      before.files.map File.path ++ objects.map ObjectSpec.fileName := by
  induction objects generalizing before rotations with
  | nil =>
    cases mounted
    simp
  | cons object rest ih =>
    unfold mountEach at mounted
    cases read : client.readKV addr token object.path with
    | error err =>
      rw [read] at mounted
      cases mounted
    | ok answer =>
      rw [read] at mounted
      rw [ih mounted]
      simp

theorem parseMountConfig_objects {attributes secrets : String} {cfg : MountConfig}
    (parsed : parseMountConfig decoders attributes secrets = .ok cfg) :
    ∃ attrs objects, unmarshalJSONMap decoders attributes = .ok attrs ∧
      decoders.unmarshalObjects (trimSpace (attrs.getD "objects" "")) = .ok objects ∧
      objects.mapM parseObject = .ok cfg.objects := by
  unfold parseMountConfig at parsed
  obtain ⟨attrs, decoded, parsed⟩ := bind_eq_ok parsed
  dsimp only at parsed
  split at parsed
  · cases parsed
  split at parsed
  · cases parsed
  obtain ⟨objects, listed, parsed⟩ := bind_eq_ok parsed
  split at parsed
  · cases parsed
  obtain ⟨checked, each, parsed⟩ := bind_eq_ok parsed
  cases parsed
  exact ⟨attrs, objects, mapError_ok_iff.mp decoded, mapError_ok_iff.mp listed, each⟩

/-- The files of a mount are those of the objects that its attributes list, in order. -/
theorem mount_ok {req : MountRequest} {response : MountResponse} {rotations later : Nat}
    (mounted : mount decoders printing range client rotations req = (.ok response, later)) :
    ∃ attrs objects checked, unmarshalJSONMap decoders req.attributes = .ok attrs ∧
      decoders.unmarshalObjects (trimSpace (attrs.getD "objects" "")) = .ok objects ∧
      objects.mapM parseObject = .ok checked ∧
      response.files.map File.path = checked.map ObjectSpec.fileName := by
  unfold mount at mounted
  cases parsed : parseMountConfig decoders req.attributes req.secrets with
  | error err =>
    rw [parsed] at mounted
    cases mounted
  | ok cfg =>
    rw [parsed] at mounted
    dsimp only at mounted
    split at mounted
    · cases mounted
    · cases login : client.loginKubernetes cfg.vaultAddr cfg.role cfg.saToken with
      | error err =>
        rw [login] at mounted
        cases mounted
      | ok token =>
        rw [login] at mounted
        obtain ⟨attrs, objects, decoded, listed, each⟩ := parseMountConfig_objects parsed
        exact ⟨attrs, objects, cfg.objects, decoded, listed, each, mountEach_ok mounted⟩

end KnxVault.Inject.Csi
