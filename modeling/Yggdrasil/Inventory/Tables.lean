import Mathlib.Data.List.Basic

/-! The tables of the inventory command: the services and resource types it leaves out,
and the types it lists although their objects carry no project field. -/

namespace Yggdrasil.Inventory

def ignoredServiceTypes : List String :=
  ["cloudformation", "gnocchi", "instance-ha", "lms", "metric", "nfv-orchestration", "panel",
   "rating", "resource-optimization"]

def globalResourceNames : List String :=
  ["account", "agent", "archive_policy", "archive_policy_rule", "availability_zone",
   "availability_zone_profile", "capabilities", "cluster_template", "conductor", "datastore",
   "datastore_version", "domain", "endpoint", "extension", "flavor", "flavor_access", "group",
   "group_type", "host", "hypervisor", "image_import", "info", "limit", "limits", "migration",
   "policy", "policy_type", "profile_type", "provider", "quota", "quota_class_set", "quota_set",
   "region", "resource_class", "resource_filter", "resource_provider", "role", "schema",
   "server_migration", "service", "service_profile", "service_status", "stats", "stats_pools",
   "task", "tenant_usage", "type", "usage", "user", "version", "volume_type",
   "volume_type_access", "zone_export"]

def globalLegacyManagerNames : List String :=
  ["archive_policies", "archive_policy_rules", "availability_zones", "capabilities",
   "datastore_versions", "datastores", "extensions", "flavors", "group_types", "hosts",
   "hypervisors", "images", "limits", "mservices", "policies", "policy_types", "profiles",
   "quotas", "regions", "registries", "resource_classes", "resource_filters",
   "resource_providers", "resource_type", "resource_types", "roles", "services", "stats", "tasks",
   "types", "users", "versions", "volume_type_accesses", "volume_types"]

/-- Status and history views that no deletion concerns. -/
def nonDeletableResourceNames : List String :=
  ["network_ip_availabilities", "network_ip_availability"]

def nonDeletableResourceNamesByService : List (String × List String) :=
  [("application-container", ["action", "actions", "container_action", "container_actions",
     "log", "logs", "stats"]),
   ("backup", ["action", "actions"]),
   ("clustering", ["action", "event"]),
   ("dns", ["blacklist", "blacklists", "floatingip", "floatingips", "pool", "pools",
     "service_status", "service_statuses", "tld", "tlds", "tsigkey", "tsigkeys",
     "zone_export", "zone_exports", "zone_import", "zone_imports"]),
   ("image", ["image_member", "image_members", "member", "members"]),
   ("load-balancer", ["health_monitor", "healthmonitor", "listener", "member", "pool"]),
   ("orchestration", ["resource", "resources"])]

/-- Project-owned types without a project field in their model. -/
def projectScopedExceptions : List (String × List String) :=
  [("application-container", ["capsule", "container"]),
   ("block-storage", ["group", "group_snapshot", "volume_transfer"]),
   ("container-infrastructure-management", ["cluster"]),
   ("compute", []),
   ("database", ["backup", "cluster", "configuration", "instance", "module"]),
   ("key-manager", ["container", "order", "secret"]),
   ("orchestration", ["stack"]),
   ("shared-file-system", ["share", "share_group", "share_snapshot", "user_message"]),
   ("workflow", ["execution", "workflow"])]

end Yggdrasil.Inventory
