import WatchCache.Schema.Metadata

set_option autoImplicit false

/-!
# The schemas of volumes

Where the volumes of a pod come from.
-/

namespace WatchCache.Schema

/-- A name in the same namespace. -/
def localObjectReference : Schema := record "LocalObjectReference" [optional "name" text]

/-- One key of a volume and the path it is put at. -/
def keyToPath : Schema := record "KeyToPath"
  [required "key" text, optional "mode" int32, required "path" text]

/-- A field of the object itself. -/
def objectFieldSelector : Schema := record "ObjectFieldSelector"
  [optional "apiVersion" text, required "fieldPath" text]

/-- A resource limit of a container. -/
def resourceFieldSelector : Schema := record "ResourceFieldSelector"
  [optional "containerName" text, optional "divisor" text, required "resource" text]

/-- One file with data of the pod. -/
def downwardAPIVolumeFile : Schema := record "DownwardAPIVolumeFile"
  [optional "fieldRef" objectFieldSelector, optional "mode" int32, required "path" text,
   optional "resourceFieldRef" resourceFieldSelector]

/-- A disk of one cloud. -/
def awsElasticBlockStore : Schema := record "AWSElasticBlockStoreVolumeSource"
  [optional "fsType" text, optional "partition" int32, optional "readOnly" boolean,
   required "volumeID" text]

/-- A disk of another cloud. -/
def azureDisk : Schema := record "AzureDiskVolumeSource" <|
  optionals text ["cachingMode", "fsType", "kind"] ++
  requireds text ["diskName", "diskURI"] ++ [optional "readOnly" boolean]

/-- A file share. -/
def azureFile : Schema := record "AzureFileVolumeSource" <|
  requireds text ["secretName", "shareName"] ++ [optional "readOnly" boolean]

/-- A distributed file system. -/
def cephFS : Schema := record "CephFSVolumeSource" <|
  required "monitors" (list text) :: optional "readOnly" boolean ::
  optional "secretRef" localObjectReference :: optionals text ["path", "secretFile", "user"]

/-- A block storage volume. -/
def cinder : Schema := record "CinderVolumeSource"
  [optional "fsType" text, optional "readOnly" boolean,
   optional "secretRef" localObjectReference, required "volumeID" text]

/-- The entries of a configuration object. -/
def configMapSource : Schema := record "ConfigMapVolumeSource"
  [optional "defaultMode" int32, optional "items" (list keyToPath), optional "name" text,
   optional "optional" boolean]

/-- A volume of a plugin that is reached through an interface. -/
def csi : Schema := record "CSIVolumeSource"
  [required "driver" text, optional "fsType" text,
   optional "nodePublishSecretRef" localObjectReference, optional "readOnly" boolean,
   optional "volumeAttributes" texts]

/-- Data of the pod as files. -/
def downwardAPISource : Schema := record "DownwardAPIVolumeSource"
  [optional "defaultMode" int32, optional "items" (list downwardAPIVolumeFile)]

/-- A directory that lives as long as the pod. -/
def emptyDir : Schema := record "EmptyDirVolumeSource" (optionals text ["medium", "sizeLimit"])

/-- What a container may use. -/
def volumeResources : Schema := record "VolumeResourceRequirements"
  [optional "limits" texts, optional "requests" texts]

/-- An object that a claim takes its contents from. -/
def typedLocalObjectReference : Schema := record "TypedLocalObjectReference"
  [optional "apiGroup" text, required "kind" text, required "name" text]

/-- An object of any namespace that a claim takes its contents from. -/
def typedObjectReference : Schema := record "TypedObjectReference" <|
  optionals text ["apiGroup", "namespace"] ++ requireds text ["kind", "name"]

/-- A claim for a volume. -/
def persistentVolumeClaimSpec : Schema := record "PersistentVolumeClaimSpec" <|
  optionals text ["storageClassName", "volumeAttributesClassName", "volumeMode", "volumeName"] ++
  [optional "accessModes" (list text), optional "dataSource" typedLocalObjectReference,
   optional "dataSourceRef" typedObjectReference, optional "resources" volumeResources,
   optional "selector" labelSelector]

/-- A claim that is made with the pod. -/
def ephemeralSource : Schema := record "EphemeralVolumeSource"
  [optional "volumeClaimTemplate" (record "PersistentVolumeClaimTemplate"
    [optional "metadata" objectMeta, required "spec" persistentVolumeClaimSpec])]

/-- A fibre channel disk. -/
def fibreChannel : Schema := record "FCVolumeSource"
  [optional "fsType" text, optional "lun" int32, optional "readOnly" boolean,
   optional "targetWWNs" (list text), optional "wwids" (list text)]

/-- A volume of a plugin that is run. -/
def flexVolume : Schema := record "FlexVolumeSource"
  [required "driver" text, optional "fsType" text, optional "options" texts,
   optional "readOnly" boolean, optional "secretRef" localObjectReference]

/-- A data set. -/
def flocker : Schema := record "FlockerVolumeSource" (optionals text ["datasetName", "datasetUUID"])

/-- A persistent disk. -/
def gcePersistentDisk : Schema := record "GCEPersistentDiskVolumeSource"
  [optional "fsType" text, optional "partition" int32, required "pdName" text,
   optional "readOnly" boolean]

/-- A repository at some revision. -/
def gitRepo : Schema := record "GitRepoVolumeSource"
  [optional "directory" text, required "repository" text, optional "revision" text]

/-- A volume of a network file system. -/
def glusterfs : Schema := record "GlusterfsVolumeSource"
  [required "endpoints" text, required "path" text, optional "readOnly" boolean]

/-- A path of the node. -/
def hostPath : Schema := record "HostPathVolumeSource"
  [required "path" text, optional "type" text]

/-- A disk that is reached through the network. -/
def iscsi : Schema := record "ISCSIVolumeSource" <|
  optionals boolean ["chapAuthDiscovery", "chapAuthSession", "readOnly"] ++
  optionals text ["fsType", "initiatorName", "iscsiInterface"] ++
  requireds text ["iqn", "targetPortal"] ++
  [required "lun" int32, optional "portals" (list text),
   optional "secretRef" localObjectReference]

/-- A directory of another machine. -/
def nfs : Schema := record "NFSVolumeSource"
  [required "path" text, optional "readOnly" boolean, required "server" text]

/-- A claim of the same namespace. -/
def persistentVolumeClaimSource : Schema := record "PersistentVolumeClaimVolumeSource"
  [required "claimName" text, optional "readOnly" boolean]

/-- A disk that a controller attaches. -/
def photonPersistentDisk : Schema := record "PhotonPersistentDiskVolumeSource"
  [optional "fsType" text, required "pdID" text]

/-- A volume of a storage cluster. -/
def portworx : Schema := record "PortworxVolumeSource"
  [optional "fsType" text, optional "readOnly" boolean, required "volumeID" text]

/-- The certificates of a trust bundle. -/
def clusterTrustBundle : Schema := record "ClusterTrustBundleProjection" <|
  optionals text ["name", "signerName"] ++
  [optional "labelSelector" labelSelector, optional "optional" boolean, required "path" text]

/-- One source of a volume with several of them. -/
def volumeProjection : Schema := record "VolumeProjection"
  [optional "clusterTrustBundle" clusterTrustBundle,
   optional "configMap" (record "ConfigMapProjection"
     [optional "items" (list keyToPath), optional "name" text, optional "optional" boolean]),
   optional "downwardAPI" (record "DownwardAPIProjection"
     [optional "items" (list downwardAPIVolumeFile)]),
   optional "secret" (record "SecretProjection"
     [optional "items" (list keyToPath), optional "name" text, optional "optional" boolean]),
   optional "serviceAccountToken" (record "ServiceAccountTokenProjection"
     [optional "audience" text, optional "expirationSeconds" int64, required "path" text])]

/-- Several sources in one directory. -/
def projected : Schema := record "ProjectedVolumeSource"
  [optional "defaultMode" int32, optional "sources" (list volumeProjection)]

/-- A volume of a storage service. -/
def quobyte : Schema := record "QuobyteVolumeSource" <|
  optionals text ["group", "tenant", "user"] ++ requireds text ["registry", "volume"] ++
  [optional "readOnly" boolean]

/-- A block device of a storage cluster. -/
def rbd : Schema := record "RBDVolumeSource" <|
  optionals text ["fsType", "keyring", "pool", "user"] ++
  [required "image" text, required "monitors" (list text), optional "readOnly" boolean,
   optional "secretRef" localObjectReference]

/-- A volume of a storage gateway. -/
def scaleIO : Schema := record "ScaleIOVolumeSource" <|
  optionals text ["fsType", "protectionDomain", "storageMode", "storagePool", "volumeName"] ++
  requireds text ["gateway", "system"] ++
  [optional "readOnly" boolean, required "secretRef" localObjectReference,
   optional "sslEnabled" boolean]

/-- The entries of a secret. -/
def secretSource : Schema := record "SecretVolumeSource"
  [optional "defaultMode" int32, optional "items" (list keyToPath),
   optional "optional" boolean, optional "secretName" text]

/-- A volume of a container storage. -/
def storageos : Schema := record "StorageOSVolumeSource" <|
  optionals text ["fsType", "volumeName", "volumeNamespace"] ++
  [optional "readOnly" boolean, optional "secretRef" localObjectReference]

/-- A disk of a virtual machine. -/
def vsphereVolume : Schema := record "VsphereVirtualDiskVolumeSource" <|
  optionals text ["fsType", "storagePolicyID", "storagePolicyName"] ++
  [required "volumePath" text]

/-- A volume of a pod. -/
def volume : Schema := record "Volume"
  [required "name" text,
   optional "awsElasticBlockStore" awsElasticBlockStore, optional "azureDisk" azureDisk,
   optional "azureFile" azureFile, optional "cephfs" cephFS, optional "cinder" cinder,
   optional "configMap" configMapSource, optional "csi" csi,
   optional "downwardAPI" downwardAPISource, optional "emptyDir" emptyDir,
   optional "ephemeral" ephemeralSource, optional "fc" fibreChannel,
   optional "flexVolume" flexVolume, optional "flocker" flocker,
   optional "gcePersistentDisk" gcePersistentDisk, optional "gitRepo" gitRepo,
   optional "glusterfs" glusterfs, optional "hostPath" hostPath, optional "iscsi" iscsi,
   optional "nfs" nfs, optional "persistentVolumeClaim" persistentVolumeClaimSource,
   optional "photonPersistentDisk" photonPersistentDisk, optional "portworxVolume" portworx,
   optional "projected" projected, optional "quobyte" quobyte, optional "rbd" rbd,
   optional "scaleIO" scaleIO, optional "secret" secretSource, optional "storageos" storageos,
   optional "vsphereVolume" vsphereVolume]

end WatchCache.Schema
