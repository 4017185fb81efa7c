/-!
# Scopes — where a deployment targets

A deployment targets a tenant, a management group, a subscription or a resource group; a schema says at
which of them its resources can be deployed.
-/

namespace ResourceLang

/-- What a deployment targets. -/
inductive Scope where
  | tenant
  | managementGroup
  | subscription
  | resourceGroup
deriving DecidableEq

namespace Scope

/-- Every scope, the outermost first. -/
def all : List Scope := [tenant, managementGroup, subscription, resourceGroup]

/-- A deployment targets a resource group unless it says otherwise. -/
instance : Inhabited Scope := ⟨resourceGroup⟩

/-- The name of a scope in source text. -/
def name : Scope → String
  | tenant => "tenant"
  | managementGroup => "managementGroup"
  | subscription => "subscription"
  | resourceGroup => "resourceGroup"

end Scope

end ResourceLang
