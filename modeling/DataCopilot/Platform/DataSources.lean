import DataCopilot.Library.CheckInsert
import DataCopilot.Platform.Creation

/-! The registered data sources: `DataSourceManagementService`, the registration at the start of a
process, and both of them running side by side. -/
namespace DataCopilot.Platform
open CheckInsert

structure DataSource where
  id : UUID
  tenantId : UUID
  name : String
  sourceType : String := "POSTGRESQL"
  host : String
  port : Int
  databaseName : String
  allowedSchema : String
  secretRef : String
  enabled : Bool := true
deriving DecidableEq

structure CreateDataSourceRequest where
  name : String
  host : String
  port : Int
  databaseName : String
  allowedSchema : String
  secretRef : String
deriving DecidableEq

structure DataSourceRegistrationProperties where
  allowedHosts : List String
  demoHost : String
  demoPort : Int
  demoDatabaseName : String
  demoAllowedSchema : String
  demoSecretRef : String
deriving DecidableEq

/-- `toLowerCase(Locale.ROOT)`, and what `equalsIgnoreCase` makes of a character. -/
structure JavaCase where
  toLowerCase : String → String
  fold : Char → Char

namespace DataSourceRegistrationProperties
variable (J : JavaCase) (R : DataSourceRegistrationProperties)

def equalsIgnoreCase (a b : String) : Bool := a.toList.map J.fold = b.toList.map J.fold

def allows (host : String) : Bool :=
  (R.allowedHosts.map fun value => J.toLowerCase (trim value)).contains (J.toLowerCase (trim host))

def matchesValues (host : String) (port : Int) (database schema secretRef : String) : Bool :=
  equalsIgnoreCase J (trim host) (trim R.demoHost) && port = R.demoPort &&
    trim database = trim R.demoDatabaseName && trim schema = trim R.demoAllowedSchema &&
    trim secretRef = trim R.demoSecretRef

def matchesRequest (request : CreateDataSourceRequest) : Bool :=
  R.matchesValues J request.host request.port request.databaseName request.allowedSchema request.secretRef

def matchesSource (source : DataSource) : Bool :=
  source.enabled &&
    R.matchesValues J source.host source.port source.databaseName source.allowedSchema source.secretRef

end DataSourceRegistrationProperties

inductive RegistrationError where
  | hostNotAllowed | demoDataSourceOnly
deriving DecidableEq

/-- `findAllByTenantIdOrderByName`, but for the order. -/
def findAllByTenantId (tenantId : UUID) (rows : List DataSource) : List DataSource :=
  rows.filter fun source => source.tenantId = tenantId

variable (J : JavaCase) (R : DataSourceRegistrationProperties)

/-- `create` up to its `save`; `id` is the random one. -/
def DataSourceManagementService.create (request : CreateDataSourceRequest) (tenantId : UUID)
    (rows : List DataSource) (id : UUID) : Verdict DataSource RegistrationError :=
  if ¬ R.allows J request.host then .refused .hostNotAllowed
  else if ¬ R.matchesRequest J request then .refused .demoDataSourceOnly
  else if (findAllByTenantId tenantId rows).any (R.matchesSource J) then .refused .demoDataSourceOnly
  else .inserts {
    id := id
    tenantId := tenantId
    name := trim request.name
    host := trim request.host
    port := request.port
    databaseName := trim request.databaseName
    allowedSchema := request.allowedSchema
    secretRef := request.secretRef }

namespace DevelopmentBootstrap

def numbered (suffix : Nat) : String := "Northwind read-only (" ++ toString suffix ++ ")"

/-- The loop over the suffixes, for `fuel` rounds at most. -/
def freeName (existingNames : List String) : Nat → Nat → String → String
  | 0, _, name => name
  | fuel + 1, suffix, name =>
    if name ∈ existingNames then freeName existingNames fuel (suffix + 1) (numbered suffix) else name

/-- The part of `run` that is about the data source. -/
def register (tenantId : UUID) (rows : List DataSource) (id : UUID) : Verdict DataSource RegistrationError :=
  let existingSources := findAllByTenantId tenantId rows
  if existingSources.any (R.matchesSource J) then .found
  else
    let existingNames := existingSources.map DataSource.name
    .inserts {
      id := id
      tenantId := tenantId
      -- one of so many names is free
      name := freeName existingNames (existingNames.length + 1) 2 "Northwind read-only"
      host := R.demoHost
      port := R.demoPort
      databaseName := R.demoDatabaseName
      allowedSchema := R.demoAllowedSchema
      secretRef := R.demoSecretRef }

end DevelopmentBootstrap

/-- A call to register a source, under the properties of its process. -/
structure Registration where
  properties : DataSourceRegistrationProperties
  tenantId : UUID
  /-- `none` is the start of a process. -/
  request : Option CreateDataSourceRequest
deriving DecidableEq

def Registration.verdict (r : Registration) (rows : List DataSource) (id : UUID) :
    Verdict DataSource RegistrationError :=
  match r.request with
  | some request => DataSourceManagementService.create J r.properties request r.tenantId rows id
  | none => DevelopmentBootstrap.register J r.properties r.tenantId rows id

/-- The primary key and `uq_data_sources_tenant_name`. -/
def DataSource.Clash (a b : DataSource) : Prop := a.id = b.id ∨ (a.tenantId = b.tenantId ∧ a.name = b.name)

instance : DecidableRel DataSource.Clash := fun _ _ => instDecidableOr

instance : Std.Symm DataSource.Clash where
  symm _ _ h := h.imp Eq.symm fun h => ⟨h.1.symm, h.2.symm⟩

abbrev SourceRegistry := State Registration DataSource RegistrationError

def SourceRegistry.system : Transition.System SourceRegistry (Move Registration UUID) :=
  State.system (Registration.verdict J) DataSource.Clash

/-- `list`, but for the order by name. -/
def DataSourceManagementService.list (tenantId : UUID) (rows : List DataSource) : List DataSource :=
  (findAllByTenantId tenantId rows).filter (R.matchesSource J)

end DataCopilot.Platform
