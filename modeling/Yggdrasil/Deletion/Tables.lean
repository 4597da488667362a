import Mathlib.Data.List.Basic

/-! The tables of the deletion planner: the accepted spellings of services and
resource types, the phase of every deletable type, and the read-only children that
go with their parent. -/

namespace Yggdrasil.Deletion

def serviceAliases : List (String × String) :=
  [("alarming", "alarm"), ("application_container", "application-container"),
   ("backup", "backup"), ("container", "application-container"),
   ("zun", "application-container"), ("block_storage", "block-storage"),
   ("cinder", "block-storage"), ("clustering", "clustering"), ("compute", "compute"),
   ("database", "database"), ("designate", "dns"), ("dns", "dns"), ("heat", "orchestration"),
   ("image", "image"), ("key_manager", "key-manager"), ("load_balancer", "load-balancer"),
   ("loadbalancer", "load-balancer"), ("magnum", "container-infrastructure-management"),
   ("manila", "shared-file-system"), ("mistral", "workflow"), ("network", "network"),
   ("neutron", "network"), ("nova", "compute"), ("object_store", "object-store"),
   ("orchestration", "orchestration"), ("octavia", "load-balancer"),
   ("shared_file_system", "shared-file-system"), ("swift", "object-store"),
   ("workflow_engine", "workflow")]

def resourceAliases : List (String × String) :=
  [("action_executions", "action_execution"), ("actions", "action"), ("alarms", "alarm"),
   ("application_containers", "container"), ("backups", "backup"), ("capsules", "capsule"),
   ("cluster_templates", "cluster_template"), ("code_sources", "code_source"),
   ("containers", "container"), ("cron_triggers", "cron_trigger"),
   ("database_instances", "instance"), ("event_triggers", "event_trigger"), ("events", "event"),
   ("floating_ips", "floating_ip"), ("group_snapshots", "group_snapshot"),
   ("keypairs", "keypair"), ("load_balancers", "load_balancer"),
   ("loadbalancers", "load_balancer"), ("networks", "network"),
   ("network_ip_availabilities", "network_ip_availability"), ("objects", "object"),
   ("ports", "port"), ("rbac_policies", "rbac_policy"), ("record_sets", "recordset"),
   ("recordsets", "recordset"), ("receivers", "receiver"),
   ("security_group_rules", "security_group_rule"), ("security_groups", "security_group"),
   ("server_groups", "server_group"), ("servers", "server"), ("share_groups", "share_group"),
   ("share_snapshots", "share_snapshot"), ("share_networks", "share_network"),
   ("shares", "share"), ("snapshots", "snapshot"), ("software_configs", "software_config"),
   ("software_deployments", "software_deployment"), ("stacks", "stack"), ("subnets", "subnet"),
   ("trusts", "trust"), ("user_messages", "user_message"),
   ("volume_transfers", "volume_transfer"), ("volumes", "volume"), ("workbooks", "workbook"),
   ("workflow_executions", "execution"), ("workflows", "workflow"),
   ("zone_shares", "zone_share"), ("zones", "zone")]

/-- The deletion order. Service-managed parents (Heat stacks, Mistral executions) go
before their children, networking goes last, and the trusts that Heat needs for
its deferred cleanup go after everything else. -/
def resourcePhases : List ((String × String) × ℕ) :=
  [(("identity", "trust"), 200), (("workflow", "event_trigger"), 10),
   (("workflow", "cron_trigger"), 10), (("workflow", "action_execution"), 15),
   (("workflow", "execution"), 20), (("workflow", "workflow"), 30),
   (("workflow", "action"), 31), (("workflow", "code_source"), 31),
   (("workflow", "dynamic_action"), 31), (("workflow", "environment"), 31),
   (("workflow", "workbook"), 31), (("dns", "zone_share"), 35), (("dns", "recordset"), 36),
   (("dns", "zone"), 37), (("alarm", "alarm"), 34), (("clustering", "receiver"), 39),
   (("clustering", "cluster"), 40), (("clustering", "node"), 41),
   (("clustering", "policy"), 42), (("clustering", "profile"), 42),
   (("orchestration", "stack"), 40), (("orchestration", "software_deployment"), 41),
   (("orchestration", "software_config"), 42), (("application-container", "capsule"), 50),
   (("application-container", "container"), 50), (("load-balancer", "load_balancer"), 60),
   (("container-infrastructure-management", "cluster"), 61),
   (("container-infrastructure-management", "cluster_template"), 62),
   (("database", "instance"), 63), (("shared-file-system", "share_snapshot"), 64),
   (("shared-file-system", "share"), 65), (("shared-file-system", "share_group"), 66),
   (("shared-file-system", "share_network"), 67), (("shared-file-system", "user_message"), 68),
   (("object-store", "object"), 70), (("object-store", "container"), 71),
   (("compute", "server"), 80), (("compute", "keypair"), 81), (("compute", "server_group"), 82),
   (("image", "image"), 83), (("key-manager", "container"), 84), (("key-manager", "order"), 84),
   (("key-manager", "secret"), 85), (("block-storage", "group_snapshot"), 90),
   (("block-storage", "snapshot"), 91), (("block-storage", "backup"), 92),
   (("block-storage", "group"), 93), (("block-storage", "volume_transfer"), 94),
   (("block-storage", "volume"), 95), (("network", "floating_ip"), 100),
   (("network", "router"), 110), (("network", "port"), 120), (("network", "subnet"), 130),
   (("network", "network"), 140), (("network", "rbac_policy"), 139),
   (("network", "security_group_rule"), 150), (("network", "security_group"), 151)]

/-- Child records that the deletion of their parent covers. -/
def coveredChildResources : List (String × String) :=
  [("application-container", "action"), ("application-container", "container_action"),
   ("application-container", "log"), ("application-container", "stats"),
   ("workflow", "action_execution_result"), ("workflow", "task"),
   ("workflow", "task_execution"), ("load-balancer", "health_monitor"),
   ("load-balancer", "listener"), ("load-balancer", "member"), ("load-balancer", "pool"),
   ("orchestration", "resource"), ("compute", "server_action"), ("compute", "server_interface"),
   ("compute", "server_ip")]

/-- The command words before the identifier, for the types whose command ends with the
identifier alone. -/
def commands : List ((String × String) × List String) :=
  [(("identity", "trust"), ["trust", "delete"]),
   (("dns", "zone"), ["zone", "delete", "--hard-delete"]),
   (("alarm", "alarm"), ["alarm", "delete"]),
   (("clustering", "cluster"), ["cluster", "delete", "--force"]),
   (("clustering", "policy"), ["cluster", "policy", "delete", "--force"]),
   (("clustering", "profile"), ["cluster", "profile", "delete", "--force"]),
   (("clustering", "node"), ["cluster", "node", "delete", "--force"]),
   (("clustering", "receiver"), ["cluster", "receiver", "delete"]),
   (("workflow", "action"), ["action", "definition", "delete"]),
   (("workflow", "action_execution"), ["action", "execution", "delete"]),
   (("workflow", "code_source"), ["code", "source", "delete"]),
   (("workflow", "cron_trigger"), ["cron", "trigger", "delete"]),
   (("workflow", "dynamic_action"), ["dynamic", "action", "delete"]),
   (("workflow", "environment"), ["workflow", "env", "delete"]),
   (("workflow", "event_trigger"), ["event", "trigger", "delete"]),
   (("workflow", "execution"), ["workflow", "execution", "delete", "--force"]),
   (("workflow", "workbook"), ["workbook", "delete"]),
   (("workflow", "workflow"), ["workflow", "delete"]),
   (("orchestration", "software_config"), ["software", "config", "delete"]),
   (("orchestration", "software_deployment"), ["software", "deployment", "delete"]),
   (("orchestration", "stack"), ["stack", "delete", "--yes"]),
   (("application-container", "capsule"), ["capsule", "delete"]),
   (("application-container", "container"), ["appcontainer", "delete", "--force", "--stop", "--wait"]),
   (("load-balancer", "load_balancer"), ["loadbalancer", "delete", "--cascade", "--wait"]),
   (("container-infrastructure-management", "cluster"), ["coe", "cluster", "delete"]),
   (("container-infrastructure-management", "cluster_template"), ["coe", "cluster", "template", "delete"]),
   (("database", "instance"), ["database", "instance", "delete", "--force"]),
   (("shared-file-system", "share"), ["share", "delete", "--wait"]),
   (("shared-file-system", "share_network"), ["share", "network", "delete"]),
   (("shared-file-system", "share_group"), ["share", "group", "delete"]),
   (("shared-file-system", "share_snapshot"), ["share", "snapshot", "delete"]),
   (("shared-file-system", "user_message"), ["share", "message", "delete"]),
   (("object-store", "container"), ["container", "delete", "-r"]),
   (("compute", "keypair"), ["keypair", "delete"]),
   (("compute", "server"), ["server", "delete", "--wait"]),
   (("compute", "server_group"), ["server", "group", "delete"]),
   (("image", "image"), ["image", "delete"]),
   (("key-manager", "container"), ["secret", "container", "delete"]),
   (("key-manager", "order"), ["secret", "order", "delete"]),
   (("key-manager", "secret"), ["secret", "delete"]),
   (("block-storage", "backup"), ["volume", "backup", "delete"]),
   (("block-storage", "group"), ["volume", "group", "delete"]),
   (("block-storage", "group_snapshot"), ["volume", "group", "snapshot", "delete"]),
   (("block-storage", "snapshot"), ["volume", "snapshot", "delete"]),
   (("block-storage", "volume"), ["volume", "delete", "--force"]),
   (("block-storage", "volume_transfer"), ["volume", "transfer", "request", "delete"]),
   (("network", "router"), ["router", "delete"]),
   (("network", "floating_ip"), ["floating", "ip", "delete"]),
   (("network", "network"), ["network", "delete"]),
   (("network", "port"), ["port", "delete"]),
   (("network", "rbac_policy"), ["network", "rbac", "delete"]),
   (("network", "security_group"), ["security", "group", "delete"]),
   (("network", "security_group_rule"), ["security", "group", "rule", "delete"]),
   (("network", "subnet"), ["subnet", "delete"])]

end Yggdrasil.Deletion
