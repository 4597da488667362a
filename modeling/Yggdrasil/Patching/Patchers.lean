import Mathlib.Data.List.Infix
import Yggdrasil.Library.Splice
import Yggdrasil.Python.Text

/-! The source patchers of the Zun and Ceilometer containers. Each reads a module of an installed
package, looks for markers and anchors, and writes the edited text back. A patcher acts on the
text of its one target file, whose path its messages name; whether a text compiles is a
parameter. -/

namespace Yggdrasil.Patching

open Splice

abbrev Text := List Char

inductive Failure where
  | runtimeError (text : String)
  | systemExit (text : String)
  | syntaxError
  deriving DecidableEq

/-- A computation on the text of a file. -/
abbrev Patch (α : Type) := ExceptT Failure (StateM Text) α

/-- The result and the text the file holds afterwards. -/
def exec {α : Type} (m : Patch α) (text : Text) : Except Failure α × Text := m.run.run text

def liftExcept {α : Type} : Except Failure α → Patch α
  | .ok a => pure a
  | .error x => throw x

/-- Reading a text file makes every line end a line feed. -/
def newlines : Text → Text
  | '\r' :: '\n' :: text => '\n' :: newlines text
  | '\r' :: text => '\n' :: newlines text
  | c :: text => c :: newlines text
  | [] => []

def readText : Patch Text := do
  let text ← get
  return newlines text

def writeText (text : Text) : Patch Unit := set text

/-- `compile(source, target, "exec")`. -/
def compileText (compiles : Text → Bool) (source : Text) : Patch Unit :=
  if compiles source then pure () else throw .syntaxError

/-- `needle in source`. -/
def isIn (needle source : Text) : Bool := decide (0 < count needle source)

/-! ### The statistics action of the capsule controller -/

namespace ZunCapsuleStats

def marker : Text := "# yggdrasil-zun-capsule-stats-v2".toList

def previousMarker : Text := "# yggdrasil-zun-capsule-stats-v1".toList

def anchor : Text := "    def _do_get_one(self, capsule_ident, legacy_api_version=False):".toList

def customActionsAnchor : Text := "    _custom_actions = \x7b\n".toList

def customAction : Text := "        'stats': ['GET'],\n".toList

def method : Text := "    # yggdrasil-zun-capsule-stats-v1
    @pecan.expose('json')
    @exception.wrap_pecan_controller_exception
    def stats(self, capsule_ident, **kwargs):
        \"\"\"Return mean CPU utilization across the running Capsule containers.\"\"\"
        context = pecan.request.context
        if utils.is_all_projects(kwargs):
            policy.enforce(
                context,
                \"capsule:get_one_all_projects\",
                action=\"capsule:get_one_all_projects\",
            )
            context.all_projects = True

        capsule = api_utils.get_resource('Capsule', capsule_ident)
        check_policy_on_capsule(capsule.as_dict(), \"capsule:get\")
        compute_api = pecan.request.compute_api
        weighted_cpu = 0.0
        total_cpu = 0.0

        for container in capsule.containers or []:
            if container.status != consts.RUNNING:
                continue
            if not container.host:
                container.host = capsule.host
            if not container.host or not container.container_id:
                continue

            try:
                stats = compute_api.container_stats(context, container)
            except Exception as error:
                LOG.warning(
                    \"Could not poll CPU for Capsule container %s: %s\",
                    container.uuid,
                    error,
                )
                continue

            try:
                cpu_percent = float(str(stats.get('CPU %')).strip().rstrip('%'))
            except (AttributeError, TypeError, ValueError):
                continue
            cpu_request = float(container.cpu or 0)
            if cpu_request <= 0:
                cpu_request = 1.0
            weighted_cpu += cpu_percent * cpu_request
            total_cpu += cpu_request

        if total_cpu <= 0:
            return \x7b\x7d
        return \x7b\"CPU %\": weighted_cpu / total_cpu\x7d

".toList

def addAction (path : String) (source : Text) : Except Failure Text :=
  if isIn customAction source then .ok source
  else if count customActionsAnchor source ≠ 1 then
    .error (.runtimeError ("expected one CapsuleController custom action map in " ++ path ++
      "; found " ++ toString (count customActionsAnchor source)))
  else .ok (replaceFirst customActionsAnchor (customActionsAnchor ++ customAction) source)

def addMethod (path : String) (source : Text) : Except Failure Text :=
  if isIn previousMarker source then .ok (replaceFirst previousMarker marker source)
  else if isIn marker source then .ok source
  else if count anchor source ≠ 1 then
    .error (.runtimeError ("expected one CapsuleController insertion point in " ++ path ++
      "; found " ++ toString (count anchor source)))
  else .ok (replaceFirst anchor (method ++ anchor) source)

def patch (path : String) : Patch Unit := do
  let source ← readText
  if isIn marker source && isIn customAction source then pure ()
  else do
    let source ← liftExcept (addAction path source)
    let source ← liftExcept (addMethod path source)
    writeText source

end ZunCapsuleStats

/-! ### The CRI v1 channel -/

namespace ZunCriV1

def driverClass : Text := "class CriDriver(driver.BaseDriver, driver.CapsuleDriver):".toList

def oldStubs : Text := "        self.runtime_stub = api_pb2_grpc.RuntimeServiceStub(channel)
        self.image_stub = api_pb2_grpc.ImageServiceStub(channel)
".toList

def newStubs : Text := "        compat_channel = _CriApiCompatibilityChannel(channel)
        self.runtime_stub = api_pb2_grpc.RuntimeServiceStub(compat_channel)
        self.image_stub = api_pb2_grpc.ImageServiceStub(compat_channel)
".toList

def compatibilityChannel : Text := "class _CriApiCompatibilityChannel:
    \"\"\"Route CRI calls to v1, falling back only when the runtime lacks v1.\"\"\"

    _ALPHA2_PREFIX = \"/runtime.v1alpha2.\"
    _V1_PREFIX = \"/runtime.v1.\"

    def __init__(self, channel):
        self._channel = channel
        self._service_versions = \x7b\x7d

    def _paths(self, method):
        if not method.startswith(self._ALPHA2_PREFIX):
            return method, method, None
        service = method.split(\"/\", 2)[1]
        stable_method = method.replace(
            self._ALPHA2_PREFIX, self._V1_PREFIX, 1
        )
        return stable_method, method, service

    def unary_unary(self, method, request_serializer=None,
                    response_deserializer=None, **kwargs):
        stable_method, alpha2_method, service = self._paths(method)
        stable_call = self._channel.unary_unary(
            stable_method,
            request_serializer=request_serializer,
            response_deserializer=response_deserializer,
            **kwargs
        )
        if service is None:
            return stable_call
        alpha2_call = self._channel.unary_unary(
            alpha2_method,
            request_serializer=request_serializer,
            response_deserializer=response_deserializer,
            **kwargs
        )

        def invoke(request, *args, **call_kwargs):
            if self._service_versions.get(service) == \"v1alpha2\":
                return alpha2_call(request, *args, **call_kwargs)
            try:
                result = stable_call(request, *args, **call_kwargs)
            except grpc.RpcError as error:
                if error.code() != grpc.StatusCode.UNIMPLEMENTED:
                    raise
                self._service_versions[service] = \"v1alpha2\"
                LOG.info(
                    \"CRI service %s does not implement v1; falling back to v1alpha2\",
                    service,
                )
                return alpha2_call(request, *args, **call_kwargs)
            self._service_versions[service] = \"v1\"
            return result

        return invoke

    def unary_stream(self, method, request_serializer=None,
                     response_deserializer=None, **kwargs):
        stable_method, alpha2_method, service = self._paths(method)
        stable_call = self._channel.unary_stream(
            stable_method,
            request_serializer=request_serializer,
            response_deserializer=response_deserializer,
            **kwargs
        )
        if service is None:
            return stable_call
        alpha2_call = self._channel.unary_stream(
            alpha2_method,
            request_serializer=request_serializer,
            response_deserializer=response_deserializer,
            **kwargs
        )

        def invoke(request, *args, **call_kwargs):
            if self._service_versions.get(service) == \"v1alpha2\":
                return alpha2_call(request, *args, **call_kwargs)
            try:
                responses = stable_call(request, *args, **call_kwargs)
                first = next(responses)
            except StopIteration:
                self._service_versions[service] = \"v1\"
                return iter(())
            except grpc.RpcError as error:
                if error.code() != grpc.StatusCode.UNIMPLEMENTED:
                    raise
                self._service_versions[service] = \"v1alpha2\"
                LOG.info(
                    \"CRI service %s does not implement v1; falling back to v1alpha2\",
                    service,
                )
                return alpha2_call(request, *args, **call_kwargs)
            self._service_versions[service] = \"v1\"

            def stream():
                yield first
                yield from responses

            return stream()

        return invoke

    def __getattr__(self, name):
        return getattr(self._channel, name)
".toList

def patch (path : String) : Patch Unit := do
  let source ← readText
  if isIn compatibilityChannel source && isIn newStubs source then pure ()
  else if isIn compatibilityChannel source || isIn newStubs source then
    throw (.runtimeError ("CRI compatibility patch is incomplete in " ++ path))
  else if count driverClass source ≠ 1 ∨ count oldStubs source ≠ 1 then
    throw (.runtimeError ("expected one supported Zun CRI driver layout in " ++ path ++
      "; found driver class " ++ toString (count driverClass source) ++ " times and " ++
      "stub setup " ++ toString (count oldStubs source) ++ " times"))
  else do
    let source := replaceFirst driverClass (compatibilityChannel ++ "\n\n".toList ++ driverClass)
      source
    let source := replaceFirst oldStubs newStubs source
    writeText source

end ZunCriV1

/-! ### The statistics of the CRI driver and their dispatch -/

namespace ZunCriCapsuleStats

def marker : Text := "# yggdrasil-zun-cri-capsule-stats-v1".toList

def importAnchor : Text := "import tenacity\n".toList

def initAnchor : Text :=
  "        self.image_stub = api_pb2_grpc.ImageServiceStub(compat_channel)\n".toList

def methodAnchor : Text :=
  "    def create_capsule(self, context, capsule, image, requested_networks,\n".toList

def method : Text := "    # yggdrasil-zun-cri-capsule-stats-v1
    def stats(self, context, container):
        \"\"\"Return CPU utilization normalized to the container CPU request.\"\"\"
        container_id = container.container_id
        if not container_id:
            return \x7b\x7d

        response = self.runtime_stub.ContainerStats(
            api_pb2.ContainerStatsRequest(container_id=container_id),
            timeout=30,
        )
        cpu_stats = response.stats.cpu
        usage_cores = None

        try:
            if cpu_stats.HasField(\"usage_nano_cores\"):
                nano_cores = int(cpu_stats.usage_nano_cores.value)
                if nano_cores > 0:
                    usage_cores = nano_cores / 1_000_000_000.0
        except ValueError:
            pass

        try:
            has_cpu_time = cpu_stats.HasField(\"usage_core_nano_seconds\")
        except ValueError:
            has_cpu_time = False
        if usage_cores is None and has_cpu_time and cpu_stats.timestamp > 0:
            cpu_time = int(cpu_stats.usage_core_nano_seconds.value)
            sample_time = int(cpu_stats.timestamp)
            with self._cpu_stats_lock:
                previous = self._cpu_stats_cache.get(container.uuid)
                self._cpu_stats_cache[container.uuid] = (cpu_time, sample_time)
                if len(self._cpu_stats_cache) > 10000:
                    self._cpu_stats_cache.clear()
                    self._cpu_stats_cache[container.uuid] = (cpu_time, sample_time)
            if previous:
                previous_cpu_time, previous_sample_time = previous
                elapsed = sample_time - previous_sample_time
                consumed = cpu_time - previous_cpu_time
                if elapsed > 0 and consumed >= 0:
                    usage_cores = consumed / float(elapsed)
            else:
                usage_cores = 0.0

        if usage_cores is None:
            return \x7b\x7d

        cpu_request = float(container.cpu or 0)
        if cpu_request <= 0:
            cpu_request = 1.0
        cpu_percent = usage_cores * 100.0 / cpu_request
        return \x7b\"CPU %\": max(0.0, min(100.0, cpu_percent))\x7d

".toList

def managerMarker : Text := "# yggdrasil-zun-capsule-stats-v1".toList

def managerOld : Text := "        try:
            # NOTE(hongbin): capsule shouldn't reach here
            return self.driver.stats(context, container)
".toList

def managerNew : Text := "        try:
            # yggdrasil-zun-capsule-stats-v1
            return self._get_driver(container).stats(context, container)
".toList

def importThreading : Text := "import threading\n".toList

def statsCache : Text :=
  ("        self._cpu_stats_cache = \x7b\x7d\n" ++
    "        self._cpu_stats_lock = threading.Lock()\n").toList

def patch (path : String) : Patch Unit := do
  let source ← readText
  if isIn marker source then pure ()
  else if count importAnchor source ≠ 1 then
    throw (.runtimeError ("expected one CRI driver import insertion point in " ++ path))
  else if count initAnchor source ≠ 1 then
    throw (.runtimeError ("expected one CRI driver initialization point in " ++ path))
  else if count methodAnchor source ≠ 1 then
    throw (.runtimeError ("expected one Capsule creation method in " ++ path))
  else do
    let source := replaceFirst importAnchor (importAnchor ++ importThreading) source
    let source := replaceFirst initAnchor (initAnchor ++ statsCache) source
    let source := replaceFirst methodAnchor (method ++ methodAnchor) source
    writeText source

def patchManager (path : String) : Patch Unit := do
  let source ← readText
  if isIn managerMarker source then pure ()
  else if count managerOld source ≠ 1 then
    throw (.runtimeError ("expected one Zun container stats driver dispatch in " ++ path ++
      "; found " ++ toString (count managerOld source)))
  else writeText (replaceFirst managerOld managerNew source)

end ZunCriCapsuleStats

/-! ### Replacing a fragment -/

/-- The patch of the Docker CPU calculation and of the exec proxy: every old fragment, of which
there must be one, becomes the new one. -/
def replaceFragment (old new : Text) (what path : String) : Patch Unit := do
  let source ← readText
  if isIn new source && !isIn old source then pure ()
  else if count old source ≠ 1 then
    throw (.runtimeError ("expected exactly one unpatched " ++ what ++ " in " ++ path ++
      ", found " ++ toString (count old source)))
  else writeText (replaceAll old new source)

namespace ZunCpuStats

def old : Text := "            cpu_usage = res['cpu_stats']['cpu_usage']['total_usage']
            system_cpu_usage = res['cpu_stats']['system_cpu_usage']
            cpu_percent = float(cpu_usage) / float(system_cpu_usage) * 100
".toList

def new : Text := "            cpu_stats = res['cpu_stats']
            precpu_stats = res.get('precpu_stats') or \x7b\x7d
            cpu_usage = cpu_stats['cpu_usage']['total_usage']
            previous_cpu_usage = precpu_stats.get(
                'cpu_usage', \x7b\x7d).get('total_usage', 0)
            system_cpu_usage = cpu_stats.get('system_cpu_usage', 0)
            previous_system_cpu_usage = precpu_stats.get(
                'system_cpu_usage', 0)
            cpu_delta = float(cpu_usage) - float(previous_cpu_usage)
            system_delta = (
                float(system_cpu_usage) - float(previous_system_cpu_usage))
            online_cpus = cpu_stats.get('online_cpus')
            if not online_cpus:
                online_cpus = len(
                    cpu_stats['cpu_usage'].get('percpu_usage') or [])
            if system_delta > 0 and cpu_delta >= 0 and online_cpus:
                cpu_percent = (
                    cpu_delta / system_delta * float(online_cpus) * 100)
            else:
                # The first Docker sample has no previous interval.
                cpu_percent = 0.0
".toList

def patch (path : String) : Patch Unit := replaceFragment old new "Zun CPU calculation" path

end ZunCpuStats

namespace ZunWsproxyMtls

def old : Text := "        client = docker.APIClient(base_url=exec_instance.url)".toList

def new : Text := "        tls_config = False
        if not CONF.docker.api_insecure:
            tls_config = docker.tls.TLSConfig(
                client_cert=(CONF.docker.cert_file, CONF.docker.key_file),
                verify=CONF.docker.ca_file)

        client = docker.APIClient(
            base_url=exec_instance.url,
            version=CONF.docker.docker_remote_api_version,
            tls=tls_config)".toList

def patch (path : String) : Patch Unit := replaceFragment old new "Docker API client" path

end ZunWsproxyMtls

/-! ### The Ceilometer publisher and its clients -/

namespace CeilometerGnocchiResource

def gnocchiMarker : Text := "_normalize_resource_attributes".toList

def gnocchiMethod : Text := "    @staticmethod
    def _normalize_resource_attributes(resource):
        \"\"\"Normalize values whose Gnocchi resource fields are strings.\"\"\"
        if resource.get(\"flavor_id\") is not None:
            resource[\"flavor_id\"] = str(resource[\"flavor_id\"])
        return resource

".toList

def createResource : Text :=
  "    def _create_resource(self, resource_type, resource):\n".toList

def eventAttributes : Text := "resource = rd.event_attributes(event)".toList

def sampleAttributes : Text := "rd.sample_attributes(sample)".toList

def normalizedEventAttributes : Text :=
  ("resource = self._normalize_resource_attributes(" ++ "rd.event_attributes(event))").toList

def normalizedSampleAttributes : Text :=
  "self._normalize_resource_attributes(rd.sample_attributes(sample))".toList

def patchGnocchi (compiles : Text → Bool) : Patch Unit := do
  let source ← readText
  if isIn gnocchiMarker source then pure ()
  else if count createResource source ≠ 1 then
    throw (.systemExit "unexpected Ceilometer publisher layout")
  else if count eventAttributes source ≠ 3 then
    throw (.systemExit "unexpected event attribute layout")
  else if count sampleAttributes source ≠ 1 then
    throw (.systemExit "unexpected sample attribute layout")
  else do
    let source := replaceFirst createResource (gnocchiMethod ++ createResource) source
    let source := replaceAll eventAttributes normalizedEventAttributes source
    let source := replaceAll sampleAttributes normalizedSampleAttributes source
    compileText compiles source
    writeText source

def rgwMarker : Text := "_treat_empty_admin_response_as_empty_account".toList

def rgwMethod : Text := "        # Some RGW tenants do not have an account record yet. RGW
        # returns an empty 200 response for those tenants, which is a valid
        # zero-usage result rather than malformed JSON.
        # _treat_empty_admin_response_as_empty_account
        if not r.content.strip():
            return []

".toList

def returnJson : Text := "        return r.json()\n".toList

def patchRgwClient (compiles : Text → Bool) : Patch Unit := do
  let source ← readText
  if isIn rgwMarker source then pure ()
  else if count returnJson source ≠ 1 then
    throw (.systemExit "unexpected Ceilometer RGW client layout")
  else do
    let source := replaceFirst returnJson (rgwMethod ++ returnJson) source
    compileText compiles source
    writeText source

def resourceTypeOperationMarker : Text :=
  "create yggdrasil_zun_capsule for Zun Capsule autoscaling".toList

def legacyResourceTypeOperation : Text :=
  "    \x7b\"desc\": \"add original_resource_id to generic for Zun Capsule autoscaling\",
     \"type\": \"update_attribute_type\",
     \"resource_type\": \"generic\",
     \"data\": [\x7b
         \"op\": \"add\",
         \"path\": \"/attributes/original_resource_id\",
         \"value\": \x7b\"type\": \"string\", \"min_length\": 0,
                   \"max_length\": 255, \"required\": False\x7d
     \x7d]\x7d,
".toList

def previousResourceTypeOperation : Text :=
  "    \x7b\"desc\": \"create yggdrasil_zun_capsule for Zun Capsule autoscaling\",
     \"type\": \"create_resource_type\",
     \"resource_type\": \"yggdrasil_zun_capsule\",
     \"data\": [\x7b
         \"attributes\": \x7b
             \"original_resource_id\": \x7b
                 \"type\": \"string\", \"min_length\": 0,
                 \"max_length\": 255, \"required\": False
             \x7d
         \x7d
     \x7d]\x7d,
".toList

def resourceTypeOperation : Text :=
  "    \x7b\"desc\": \"create yggdrasil_zun_capsule for Zun Capsule autoscaling\",
     \"type\": \"create_resource_type\",
     \"resource_type\": \"yggdrasil_zun_capsule\",
     \"data\": [\x7b\"attributes\": \x7b\x7d\x7d]\x7d,
".toList

def resourceAttributeOperationMarker : Text :=
  "add yggdrasil_senlin_resource_id to Zun Capsule autoscaling".toList

def resourceAttributeRemovalOperationMarker : Text :=
  "remove original_resource_id from Zun Capsule autoscaling".toList

def resourceAttributeRemovalOperation : Text :=
  "    \x7b\"desc\": \"remove original_resource_id from Zun Capsule autoscaling\",
     \"type\": \"update_attribute_type\",
     \"resource_type\": \"yggdrasil_zun_capsule\",
     \"data\": [\x7b
         \"op\": \"remove\",
         \"path\": \"/attributes/original_resource_id\"
     \x7d]\x7d,
".toList

def resourceAttributeOperation : Text :=
  "    \x7b\"desc\": \"add yggdrasil_senlin_resource_id to Zun Capsule autoscaling\",
     \"type\": \"update_attribute_type\",
     \"resource_type\": \"yggdrasil_zun_capsule\",
     \"data\": [\x7b
         \"op\": \"add\",
         \"path\": \"/attributes/yggdrasil_senlin_resource_id\",
         \"value\": \x7b\"type\": \"string\", \"min_length\": 0,
                   \"max_length\": 255, \"required\": False\x7d
     \x7d]\x7d,
".toList

def resourceTypeValueCopy : Text := "            value = first_op['value'].copy()\n".toList

def resourceTypeValueCopyPatch : Text :=
  "            value = first_op.get('value', \x7b\x7d).copy()\n".toList

def updateOperations : Text := "resources_update_operations = [\n".toList

def patchValueCopy (source : Text) : Except Failure Text :=
  if isIn resourceTypeValueCopy source then
    .ok (replaceFirst resourceTypeValueCopy resourceTypeValueCopyPatch source)
  else if isIn resourceTypeValueCopyPatch source then .ok source
  else .error (.systemExit "unexpected Ceilometer Gnocchi update operation layout")

def removeLegacy (source : Text) : Text :=
  if isIn legacyResourceTypeOperation source then
    replaceFirst legacyResourceTypeOperation [] source
  else source

def replacePrevious (source : Text) : Text :=
  if isIn previousResourceTypeOperation source then
    replaceFirst previousResourceTypeOperation resourceTypeOperation source
  else source

/-- Add an operation behind an anchor, of which there must be one, unless its marker is there. -/
def addOperation (marker anchor operation : Text) (message : String) (source : Text) :
    Except Failure Text :=
  if isIn marker source then .ok source
  else if count anchor source ≠ 1 then .error (.systemExit message)
  else .ok (replaceFirst anchor (anchor ++ operation) source)

def addResourceType : Text → Except Failure Text :=
  addOperation resourceTypeOperationMarker updateOperations resourceTypeOperation
    "unexpected Ceilometer Gnocchi resource operation layout"

def addAttributeRemoval : Text → Except Failure Text :=
  addOperation resourceAttributeRemovalOperationMarker resourceTypeOperation
    resourceAttributeRemovalOperation "unexpected Zun Capsule Gnocchi resource type operation"

def addAttribute : Text → Except Failure Text :=
  addOperation resourceAttributeOperationMarker resourceAttributeRemovalOperation
    resourceAttributeOperation "unexpected Zun Capsule Gnocchi attribute removal operation"

def patchGnocchiResourceType (compiles : Text → Bool) : Patch Unit := do
  let source ← readText
  let source ← liftExcept (patchValueCopy source)
  let source := removeLegacy source
  let source := replacePrevious source
  let source ← liftExcept (addResourceType source)
  let source ← liftExcept (addAttributeRemoval source)
  let source ← liftExcept (addAttribute source)
  compileText compiles source
  writeText source

end CeilometerGnocchiResource

/-! ### The meter mapping of Ceilometer -/

namespace CeilometerZunCapsule

def marker : Text := "# yggdrasil-zun-capsule-cpu-v3".toList

def previousMarker : Text := "# yggdrasil-zun-capsule-cpu-v2".toList

def legacyMarker : Text := "# yggdrasil-zun-capsule-cpu-v1".toList

def definition : Text := "
  - resource_type: yggdrasil_zun_capsule
    metrics:
      yggdrasil.zun.capsule.cpu_util:
        archive_policy_name: ceilometer-high
    attributes:
      yggdrasil_senlin_resource_id:
        fields: resource_metadata.yggdrasil_senlin_resource_id
".toList

def previousDefinition : Text := "
  - resource_type: yggdrasil_zun_capsule
    metrics:
      yggdrasil.zun.capsule.cpu_util:
        archive_policy_name: ceilometer-high
    attributes:
      original_resource_id:
        fields: resource_metadata.original_resource_id
".toList

def legacyDefinition : Text := "
  - resource_type: generic
    metrics:
      yggdrasil.zun.capsule.cpu_util:
        archive_policy_name: ceilometer-high
    attributes:
      original_resource_id:
        fields: resource_metadata.original_resource_id
".toList

def meter : Text := "yggdrasil.zun.capsule.cpu_util".toList

def resourcesKey : Text := "resources:".toList

/-- `source.rstrip()`. -/
def rstrip (source : Text) : Text := (source.reverse.dropWhile Python.isSpace).reverse

def updateDefinition (oldMarker oldDefinition : Text) (message : String) (source : Text) :
    Patch Unit :=
  if count (oldMarker ++ oldDefinition) source ≠ 1 then throw (.systemExit message)
  else writeText (replaceFirst (oldMarker ++ oldDefinition) (marker ++ definition) source)

def patchResourceDefinitions : Patch Unit := do
  let source ← readText
  if isIn marker source then pure ()
  else if isIn previousMarker source then
    updateDefinition previousMarker previousDefinition
      "unexpected previous Zun capsule meter mapping" source
  else if isIn legacyMarker source then
    updateDefinition legacyMarker legacyDefinition
      "unexpected legacy Zun capsule meter mapping" source
  else if isIn meter source then
    throw (.systemExit "Zun capsule CPU meter already exists without its marker")
  else if !isIn resourcesKey source then
    throw (.systemExit "unexpected Ceilometer Gnocchi resource definition layout")
  else writeText (rstrip source ++ ['\n'] ++ marker ++ definition)

end CeilometerZunCapsule

/-! ### The patchers -/

inductive Patcher where
  | zunCapsuleStats
  | zunCriV1
  | zunCriCapsuleStats
  | zunCapsuleManager
  | zunCpuStats
  | zunWsproxyMtls
  | gnocchi
  | rgwClient
  | gnocchiResourceType
  | resourceDefinitions
  deriving DecidableEq

/-- The patcher at work on the file at the path. -/
def Patcher.patch (compiles : Text → Bool) (path : String) : Patcher → Patch Unit
  | .zunCapsuleStats => ZunCapsuleStats.patch path
  | .zunCriV1 => ZunCriV1.patch path
  | .zunCriCapsuleStats => ZunCriCapsuleStats.patch path
  | .zunCapsuleManager => ZunCriCapsuleStats.patchManager path
  | .zunCpuStats => ZunCpuStats.patch path
  | .zunWsproxyMtls => ZunWsproxyMtls.patch path
  | .gnocchi => CeilometerGnocchiResource.patchGnocchi compiles
  | .rgwClient => CeilometerGnocchiResource.patchRgwClient compiles
  | .gnocchiResourceType => CeilometerGnocchiResource.patchGnocchiResourceType compiles
  | .resourceDefinitions => CeilometerZunCapsule.patchResourceDefinitions

end Yggdrasil.Patching
