import WatchCache.Schema.Volume

set_option autoImplicit false

/-!
# The schemas of containers

What runs in a pod: the image, its environment, its ports, its probes and what it may use.
-/

namespace WatchCache.Schema

/-- Where the value of a variable comes from. -/
def envVarSource : Schema :=
  let keyOf (name : String) : Schema := record name
    [required "key" text, optional "name" text, optional "optional" boolean]
  record "EnvVarSource"
    [optional "configMapKeyRef" (keyOf "ConfigMapKeySelector"),
     optional "fieldRef" objectFieldSelector,
     optional "resourceFieldRef" resourceFieldSelector,
     optional "secretKeyRef" (keyOf "SecretKeySelector")]

/-- A variable of a container. -/
def envVar : Schema := record "EnvVar"
  [required "name" text, optional "value" text, optional "valueFrom" envVarSource]

/-- An object whose entries are variables of a container. -/
def envFromSource : Schema :=
  let named (name : String) : Schema := record name
    [optional "name" text, optional "optional" boolean]
  record "EnvFromSource"
    [optional "configMapRef" (named "ConfigMapEnvSource"), optional "prefix" text,
     optional "secretRef" (named "SecretEnvSource")]

/-- A command that is run in a container. -/
def execAction : Schema := record "ExecAction" [optional "command" (list text)]

/-- A request that is made to a container. -/
def httpGetAction : Schema := record "HTTPGetAction"
  [optional "host" text,
   optional "httpHeaders" (list (record "HTTPHeader" (requireds text ["name", "value"]))),
   optional "path" text, required "port" intOrText, optional "scheme" text]

/-- A connection that is opened to a container. -/
def tcpSocketAction : Schema := record "TCPSocketAction"
  [optional "host" text, required "port" intOrText]

/-- What happens when a container starts or stops. -/
def lifecycleHandler : Schema := record "LifecycleHandler"
  [optional "exec" execAction, optional "httpGet" httpGetAction,
   optional "sleep" (record "SleepAction" [required "seconds" int64]),
   optional "tcpSocket" tcpSocketAction]

/-- What happens around the life of a container. -/
def lifecycle : Schema := record "Lifecycle"
  [optional "postStart" lifecycleHandler, optional "preStop" lifecycleHandler]

/-- How the state of a container is found out. -/
def probe : Schema := record "Probe" <|
  [optional "exec" execAction,
   optional "grpc" (record "GRPCAction" [required "port" int32, optional "service" text]),
   optional "httpGet" httpGetAction, optional "tcpSocket" tcpSocketAction,
   optional "terminationGracePeriodSeconds" int64] ++
  optionals int32
    ["failureThreshold", "initialDelaySeconds", "periodSeconds", "successThreshold",
     "timeoutSeconds"]

/-- A port of a container. -/
def containerPort : Schema := record "ContainerPort" <|
  required "containerPort" int32 :: optional "hostPort" int32 ::
  optionals text ["hostIP", "name", "protocol"]

/-- When a container is resized. -/
def containerResizePolicy : Schema := record "ContainerResizePolicy"
  (requireds text ["resourceName", "restartPolicy"])

/-- What a container may use. -/
def resourceRequirements : Schema := record "ResourceRequirements"
  [optional "claims" (list (record "ResourceClaim" [required "name" text])),
   optional "limits" texts, optional "requests" texts]

/-- The labels of a mandatory access control. -/
def seLinuxOptions : Schema := record "SELinuxOptions"
  (optionals text ["level", "role", "type", "user"])

/-- The filter of system calls. -/
def seccompProfile : Schema := record "SeccompProfile"
  [optional "localhostProfile" text, required "type" text]

/-- How a container runs on one operating system. -/
def windowsOptions : Schema := record "WindowsSecurityContextOptions" <|
  optionals text ["gmsaCredentialSpec", "gmsaCredentialSpecName", "runAsUserName"] ++
  [optional "hostProcess" boolean]

/-- What a container is allowed to do. -/
def securityContext : Schema := record "SecurityContext" <|
  optionals boolean
    ["allowPrivilegeEscalation", "privileged", "readOnlyRootFilesystem", "runAsNonRoot"] ++
  optionals int64 ["runAsGroup", "runAsUser"] ++
  [optional "capabilities" (record "Capabilities" (optionals (list text) ["add", "drop"])),
   optional "procMount" text, optional "seLinuxOptions" seLinuxOptions,
   optional "seccompProfile" seccompProfile, optional "windowsOptions" windowsOptions]

/-- A block device of a container. -/
def volumeDevice : Schema := record "VolumeDevice" (requireds text ["devicePath", "name"])

/-- Where a volume stands in a container. -/
def volumeMount : Schema := record "VolumeMount" <|
  requireds text ["mountPath", "name"] ++
  optionals text ["mountPropagation", "subPath", "subPathExpr"] ++
  [optional "readOnly" boolean]

/-- The members that all sorts of containers have. -/
def containerFields : List (String × Bool × Schema) :=
  optionals (list text) ["args", "command"] ++
  optionals text
    ["image", "imagePullPolicy", "restartPolicy", "terminationMessagePath",
     "terminationMessagePolicy", "workingDir"] ++
  optionals boolean ["stdin", "stdinOnce", "tty"] ++
  optionals probe ["livenessProbe", "readinessProbe", "startupProbe"] ++
  [optional "env" (list envVar), optional "envFrom" (list envFromSource),
   optional "lifecycle" lifecycle, required "name" text,
   optional "ports" (list containerPort),
   optional "resizePolicy" (list containerResizePolicy),
   optional "resources" resourceRequirements, optional "securityContext" securityContext,
   optional "volumeDevices" (list volumeDevice), optional "volumeMounts" (list volumeMount)]

/-- A container. -/
def container : Schema := record "Container" containerFields

/-- A container that is added to a running pod. -/
def ephemeralContainer : Schema :=
  record "EphemeralContainer" (optional "targetContainerName" text :: containerFields)

end WatchCache.Schema
