import WatchCache.Schema.Container

set_option autoImplicit false

/-!
# The schema of pods

What a pod is made of and where it may run.
-/

namespace WatchCache.Schema

/-- One condition on a node. -/
def nodeSelectorRequirement : Schema := record "NodeSelectorRequirement" <|
  requireds text ["key", "operator"] ++ [optional "values" (list text)]

/-- Conditions on a node that all have to hold. -/
def nodeSelectorTerm : Schema := record "NodeSelectorTerm"
  (optionals (list nodeSelectorRequirement) ["matchExpressions", "matchFields"])

/-- Which nodes a pod asks for. -/
def nodeAffinity : Schema := record "NodeAffinity"
  [optional "preferredDuringSchedulingIgnoredDuringExecution"
     (list (record "PreferredSchedulingTerm"
       [required "preference" nodeSelectorTerm, required "weight" int32])),
   optional "requiredDuringSchedulingIgnoredDuringExecution"
     (record "NodeSelector" [required "nodeSelectorTerms" (list nodeSelectorTerm)])]

/-- Which other pods run nearby. -/
def podAffinityTerm : Schema := record "PodAffinityTerm" <|
  optionals labelSelector ["labelSelector", "namespaceSelector"] ++
  optionals (list text) ["matchLabelKeys", "mismatchLabelKeys", "namespaces"] ++
  [required "topologyKey" text]

/-- Conditions on the pods nearby, under a name. -/
def podAffinityAs (name : String) : Schema := record name
  [optional "preferredDuringSchedulingIgnoredDuringExecution"
     (list (record "WeightedPodAffinityTerm"
       [required "podAffinityTerm" podAffinityTerm, required "weight" int32])),
   optional "requiredDuringSchedulingIgnoredDuringExecution" (list podAffinityTerm)]

/-- Where a pod may run. -/
def affinity : Schema := record "Affinity"
  [optional "nodeAffinity" nodeAffinity, optional "podAffinity" (podAffinityAs "PodAffinity"),
   optional "podAntiAffinity" (podAffinityAs "PodAntiAffinity")]

/-- How a pod finds names. -/
def podDNSConfig : Schema := record "PodDNSConfig" <|
  optionals (list text) ["nameservers", "searches"] ++
  [optional "options" (list (record "PodDNSConfigOption" (optionals text ["name", "value"])))]

/-- Names for one address. -/
def hostAlias : Schema := record "HostAlias"
  [optional "hostnames" (list text), optional "ip" text]

/-- What a pod is allowed to do. -/
def podSecurityContext : Schema := record "PodSecurityContext" <|
  optionals int64 ["fsGroup", "runAsGroup", "runAsUser"] ++
  [optional "fsGroupChangePolicy" text, optional "runAsNonRoot" boolean,
   optional "seLinuxOptions" seLinuxOptions, optional "seccompProfile" seccompProfile,
   optional "supplementalGroups" (list int64),
   optional "sysctls" (list (record "Sysctl" (requireds text ["name", "value"]))),
   optional "windowsOptions" windowsOptions]

/-- A resource that a pod asks for by name. -/
def podResourceClaim : Schema := record "PodResourceClaim"
  [required "name" text,
   optional "source" (record "ClaimSource"
     (optionals text ["resourceClaimName", "resourceClaimTemplateName"]))]

/-- A taint that a pod puts up with. -/
def toleration : Schema := record "Toleration" <|
  optionals text ["effect", "key", "operator", "value"] ++ [optional "tolerationSeconds" int64]

/-- How pods spread over the nodes. -/
def topologySpreadConstraint : Schema := record "TopologySpreadConstraint" <|
  optionals text ["nodeAffinityPolicy", "nodeTaintsPolicy"] ++
  requireds text ["topologyKey", "whenUnsatisfiable"] ++
  [optional "labelSelector" labelSelector, optional "matchLabelKeys" (list text),
   required "maxSkew" int32, optional "minDomains" int32]

/-- What a pod is made of. -/
def podSpec : Schema := record "PodSpec" <|
  optionals int64 ["activeDeadlineSeconds", "terminationGracePeriodSeconds"] ++
  optionals boolean
    ["automountServiceAccountToken", "enableServiceLinks", "hostIPC", "hostNetwork", "hostPID",
     "hostUsers", "setHostnameAsFQDN", "shareProcessNamespace"] ++
  optionals text
    ["dnsPolicy", "hostname", "nodeName", "preemptionPolicy", "priorityClassName",
     "restartPolicy", "runtimeClassName", "schedulerName", "serviceAccount",
     "serviceAccountName", "subdomain"] ++
  [optional "affinity" affinity, required "containers" (list container),
   optional "dnsConfig" podDNSConfig,
   optional "ephemeralContainers" (list ephemeralContainer),
   optional "hostAliases" (list hostAlias),
   optional "imagePullSecrets" (list localObjectReference),
   optional "initContainers" (list container), optional "nodeSelector" texts,
   optional "os" (record "PodOS" [required "name" text]), optional "overhead" texts,
   optional "priority" int32,
   optional "readinessGates" (list (record "PodReadinessGate" [required "conditionType" text])),
   optional "resourceClaims" (list podResourceClaim),
   optional "schedulingGates" (list (record "PodSchedulingGate" [required "name" text])),
   optional "securityContext" podSecurityContext, optional "tolerations" (list toleration),
   optional "topologySpreadConstraints" (list topologySpreadConstraint),
   optional "volumes" (list volume)]

/-- A pod before it has a name. -/
def podTemplateSpec : Schema := record "PodTemplateSpec"
  [optional "metadata" objectMeta, optional "spec" podSpec]

/-! ## States -/

/-- What a container is doing. -/
def containerState : Schema := record "ContainerState"
  [optional "running" (record "ContainerStateRunning" [optional "startedAt" timestamp]),
   optional "terminated" (record "ContainerStateTerminated" <|
     optionals text ["containerID", "message", "reason"] ++
     optionals timestamp ["finishedAt", "startedAt"] ++
     [required "exitCode" int32, optional "signal" int32]),
   optional "waiting" (record "ContainerStateWaiting" (optionals text ["message", "reason"]))]

/-- How a container is. -/
def containerStatus : Schema := record "ContainerStatus" <|
  requireds text ["image", "imageID", "name"] ++
  optionals containerState ["lastState", "state"] ++
  [optional "allocatedResources" texts, optional "containerID" text, required "ready" boolean,
   optional "resources" resourceRequirements, required "restartCount" int32,
   optional "started" boolean]

/-- The members of a condition, besides its times. -/
def conditionFields : List (String × Bool × Schema) :=
  optionals text ["message", "reason"] ++ requireds text ["status", "type"]

/-- How a pod is. -/
def podStatus : Schema := record "PodStatus" <|
  optionals text
    ["hostIP", "message", "nominatedNodeName", "phase", "podIP", "qosClass", "reason",
     "resize"] ++
  optionals (list containerStatus)
    ["containerStatuses", "ephemeralContainerStatuses", "initContainerStatuses"] ++
  [optional "conditions" (list (record "PodCondition"
     (optionals timestamp ["lastProbeTime", "lastTransitionTime"] ++ conditionFields))),
   optional "hostIPs" (list (record "HostIP" [optional "ip" text])),
   optional "podIPs" (list (record "PodIP" [optional "ip" text])),
   optional "resourceClaimStatuses" (list (record "PodResourceClaimStatus"
     [required "name" text, optional "resourceClaimName" text])),
   optional "startTime" timestamp]

/-- A pod. -/
def pod : Schema := object "v1" "Pod" [optional "spec" podSpec, optional "status" podStatus]

end WatchCache.Schema
