import WatchCache.Schema.Pod

set_option autoImplicit false

/-!
# The schemas of typed resources

The resources that objects of the cache can be decoded into.
-/

namespace WatchCache.Schema

/-- Configuration. -/
def configMap : Schema := object "v1" "ConfigMap"
  [optional "binaryData" (dict bytes), optional "data" texts, optional "immutable" boolean]

/-- Configuration that is not for everybody. -/
def secret : Schema := object "v1" "Secret"
  [optional "data" (dict bytes), optional "immutable" boolean, optional "stringData" texts,
   optional "type" text]

/-- A namespace. -/
def namespace_ : Schema := object "v1" "Namespace"
  [optional "spec" (record "NamespaceSpec" [optional "finalizers" (list text)]),
   optional "status" (record "NamespaceStatus"
     [optional "conditions" (list (record "NamespaceCondition"
        (optional "lastTransitionTime" timestamp :: conditionFields))),
      optional "phase" text])]

/-- How new pods replace old ones. -/
def deploymentStrategy : Schema := record "DeploymentStrategy"
  [optional "rollingUpdate" (record "RollingUpdateDeployment"
     (optionals intOrText ["maxSurge", "maxUnavailable"])),
   optional "type" text]

/-- Which pods should run. -/
def deploymentSpec : Schema := record "DeploymentSpec" <|
  optionals int32
    ["minReadySeconds", "progressDeadlineSeconds", "replicas", "revisionHistoryLimit"] ++
  [optional "paused" boolean, required "selector" labelSelector,
   optional "strategy" deploymentStrategy, required "template" podTemplateSpec]

/-- Which pods run. -/
def deploymentStatus : Schema := record "DeploymentStatus" <|
  optionals int32
    ["availableReplicas", "collisionCount", "readyReplicas", "replicas", "unavailableReplicas",
     "updatedReplicas"] ++
  [optional "conditions" (list (record "DeploymentCondition"
     (optionals timestamp ["lastTransitionTime", "lastUpdateTime"] ++ conditionFields))),
   optional "observedGeneration" int64]

/-- Pods that are kept running. -/
def deployment : Schema := object "apps/v1" "Deployment"
  [optional "spec" deploymentSpec, optional "status" deploymentStatus]

/-! ## Services -/

/-- A port of a service. -/
def servicePort : Schema := record "ServicePort" <|
  optionals text ["appProtocol", "name", "protocol"] ++
  [optional "nodePort" int32, required "port" int32, optional "targetPort" intOrText]

/-- How a service is reached. -/
def serviceSpec : Schema := record "ServiceSpec" <|
  optionals text
    ["clusterIP", "externalName", "externalTrafficPolicy", "internalTrafficPolicy",
     "ipFamilyPolicy", "loadBalancerClass", "loadBalancerIP", "sessionAffinity", "type"] ++
  optionals (list text)
    ["clusterIPs", "externalIPs", "ipFamilies", "loadBalancerSourceRanges"] ++
  optionals boolean ["allocateLoadBalancerNodePorts", "publishNotReadyAddresses"] ++
  [optional "healthCheckNodePort" int32, optional "ports" (list servicePort),
   optional "selector" texts,
   optional "sessionAffinityConfig" (record "SessionAffinityConfig"
     [optional "clientIP" (record "ClientIPConfig" [optional "timeoutSeconds" int32])])]

/-- An address of a load balancer. -/
def loadBalancerIngress : Schema := record "LoadBalancerIngress" <|
  optionals text ["hostname", "ip", "ipMode"] ++
  [optional "ports" (list (record "PortStatus"
     [optional "error" text, required "port" int32, required "protocol" text]))]

/-- How a service is. -/
def serviceStatus : Schema := record "ServiceStatus"
  [optional "conditions" (list (record "Condition" <|
     requireds text ["message", "reason", "status", "type"] ++
     [required "lastTransitionTime" timestamp, optional "observedGeneration" int64])),
   optional "loadBalancer" (record "LoadBalancerStatus"
     [optional "ingress" (list loadBalancerIngress)])]

/-- A service. -/
def service : Schema := object "v1" "Service"
  [optional "spec" serviceSpec, optional "status" serviceStatus]

end WatchCache.Schema
