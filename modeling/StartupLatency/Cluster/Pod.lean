import StartupLatency.Cluster.Object
/-!
Pods as an API server writes them. What is absent reads as empty, and an absent creation time as
the epoch.
-/

namespace StartupLatency.Cluster

open Json (Decoder DecodeFault)

structure PodObject where
  objectMeta : ObjectMeta
  node? : Option String
  phase? : Option String
  reason? : Option String
  message? : Option String
deriving DecidableEq, Inhabited

namespace PodObject

def fixed (name wanted : String) : Json.Field α :=
  ⟨name, .never, fun json value =>
    match Json.Decode.string json with
    | .error fault => .error fault
    | .ok given =>
      if given = wanted then .ok value else .error (.wrongValue json wanted)⟩

def containerFields : List (Json.Field Unit) :=
  checked .text ["image", "imagePullPolicy", "name", "restartPolicy", "terminationMessagePath",
    "terminationMessagePolicy", "workingDir"] ++
  checked .flag ["stdin", "stdinOnce", "tty"] ++ checked .texts ["args", "command"] ++
  checked (.objects "EnvVar") ["env"] ++ checked (.objects "EnvFromSource") ["envFrom"] ++
  checked (.object "Lifecycle") ["lifecycle"] ++
  checked (.object "Probe") ["livenessProbe", "readinessProbe", "startupProbe"] ++
  checked (.objects "ContainerPort") ["ports"] ++
  checked (.objects "ContainerResizePolicy") ["resizePolicy"] ++
  checked (.object "ResourceRequirements") ["resources"] ++
  checked (.object "SecurityContext") ["securityContext"] ++
  checked (.objects "VolumeDevice") ["volumeDevices"] ++
  checked (.objects "VolumeMount") ["volumeMounts"]

def containers : Decoder (List Unit) := Json.Decode.list (object "Container" () containerFields)

def specFields : List (Json.Field (Option String)) :=
  [member "nodeName" Json.Decode.string fun _ v => v,
    member "containers" containers fun node _ => node,
    member "initContainers" containers fun node _ => node] ++
  checked .int64 ["activeDeadlineSeconds", "terminationGracePeriodSeconds"] ++
  checked .int32 ["priority"] ++
  checked .text ["dnsPolicy", "hostname", "preemptionPolicy", "priorityClassName",
    "restartPolicy", "runtimeClassName", "schedulerName", "serviceAccount", "serviceAccountName",
    "subdomain"] ++
  checked .flag ["automountServiceAccountToken", "enableServiceLinks", "hostIPC", "hostNetwork",
    "hostPID", "hostUsers", "setHostnameAsFQDN", "shareProcessNamespace"] ++
  checked .textMap ["nodeSelector", "overhead"] ++ checked (.object "Affinity") ["affinity"] ++
  checked (.object "PodDNSConfig") ["dnsConfig"] ++ checked (.object "PodOS") ["os"] ++
  checked (.object "PodSecurityContext") ["securityContext"] ++
  checked (.objects "EphemeralContainer") ["ephemeralContainers"] ++
  checked (.objects "HostAlias") ["hostAliases"] ++
  checked (.objects "LocalObjectReference") ["imagePullSecrets"] ++
  checked (.objects "PodReadinessGate") ["readinessGates"] ++
  checked (.objects "PodResourceClaim") ["resourceClaims"] ++
  checked (.objects "PodSchedulingGate") ["schedulingGates"] ++
  checked (.objects "Toleration") ["tolerations"] ++
  checked (.objects "TopologySpreadConstraint") ["topologySpreadConstraints"] ++
  checked (.objects "Volume") ["volumes"]

abbrev StatusTexts := Option String × Option String × Option String

def statusFields : List (Json.Field StatusTexts) :=
  [member "phase" Json.Decode.string fun s v => (v, s.2),
    member "reason" Json.Decode.string fun s v => (s.1, v, s.2.2),
    member "message" Json.Decode.string fun s v => (s.1, s.2.1, v)] ++
  checked .text ["hostIP", "nominatedNodeName", "podIP", "qosClass", "resize"] ++
  checked .time ["startTime"] ++ checked (.objects "PodCondition") ["conditions"] ++
  checked (.objects "ContainerStatus")
    ["containerStatuses", "ephemeralContainerStatuses", "initContainerStatuses"] ++
  checked (.objects "HostIP") ["hostIPs"] ++ checked (.objects "PodIP") ["podIPs"] ++
  checked (.objects "PodResourceClaimStatus") ["resourceClaimStatuses"]

def fields : List (Json.Field PodObject) :=
  [fixed "apiVersion" "v1", fixed "kind" "Pod",
    member "metadata" ObjectMeta.decode fun pod v => { pod with objectMeta := v.getD default },
    member "spec" (object "PodSpec" none specFields) fun pod v => { pod with node? := v.join },
    member "status" (object "PodStatus" (none, none, none) statusFields) fun pod v =>
      match v with
      | some (phase?, reason?, message?) =>
        { pod with phase? := phase?, reason? := reason?, message? := message? }
      | none => { pod with phase? := none, reason? := none, message? := none }]

def decode : Decoder PodObject := object "Pod" default fields

def pod (object : PodObject) : Pod :=
  { ns := object.objectMeta.ns?.getD ""
    name := object.objectMeta.name?.getD ""
    uid := object.objectMeta.uid?.getD ""
    created := object.objectMeta.created?.getD .epoch
    node := object.node?.getD ""
    phase := (object.phase?.map Phase.of).getD .unknown
    reason := object.reason?.getD ""
    message := object.message?.getD ""
    labels := object.objectMeta.labels?.getD ∅
    annotations := object.objectMeta.annotations?.getD ∅ }

end PodObject

def podOf : Decoder Pod := fun json => (PodObject.decode json).map PodObject.pod

def annotationChange (annotations : Annotations) : Json :=
  .obj [("metadata", .obj [("annotations", Json.ofStringMap annotations)])]

end StartupLatency.Cluster
