import PrivosCluster.Master.AppLifecycle

/-!
# Workspaces and their revocation

The workspace records, and the route by which the Portal revokes a workspace: every app that is
not removed is quarantined, then the workspace itself is marked.
-/

namespace PrivosCluster

open AsyncProgram

/-- The hash and the cipher of workspace keys. -/
structure KeyCrypto where
  hashKey : String → String
  encrypt : String → String

namespace WorkspaceCluster

structure UpsertInput where
  workspaceId : String
  key : String
  quota : WorkspaceQuota
  defaultAvailabilityTier : Option AvailabilityTier := none

def upsert (keys : KeyCrypto) (input : UpsertInput) : Async Unit := do
  let time ← now
  let set (createdAt : Time) (slug : Option String) : MasterWorkspace :=
    { workspaceId := input.workspaceId
      slug
      keyHash := keys.hashKey input.key
      encryptedKey := keys.encrypt input.key
      quota := input.quota
      defaultAvailabilityTier := input.defaultAvailabilityTier.getD .single
      status := .active
      createdAt
      updatedAt := time }
  let _ ← Workspaces.upsertOne (fun workspace ↦ workspace.workspaceId == input.workspaceId)
    (fun workspace ↦ set workspace.createdAt workspace.slug) (set time none)

/-- An update of an active workspace, refused when there is none. -/
def updateActive (workspaceId : String) (update : MasterWorkspace → MasterWorkspace) :
    Async Unit := do
  let result ← Workspaces.updateOne
    (fun workspace ↦ workspace.workspaceId == workspaceId && workspace.status == .active) update
  Program.throwIf (result.matchedCount ≠ 1) { message := "workspace not found" }

def rotateKey (keys : KeyCrypto) (workspaceId key : String) : Async Unit := do
  let time ← now
  updateActive workspaceId fun workspace ↦
    { workspace with
      keyHash := keys.hashKey key
      encryptedKey := keys.encrypt key
      updatedAt := time }

def updateQuota (workspaceId : String) (quota : WorkspaceQuota) : Async Unit := do
  let time ← now
  updateActive workspaceId fun workspace ↦ { workspace with quota, updatedAt := time }

def setSlug (workspaceId slug : String) : Async Unit := do
  let time ← now
  updateActive workspaceId fun workspace ↦ { workspace with slug := some slug, updatedAt := time }

def revoke (workspaceId : String) : Async Unit := do
  let time ← now
  let _ ← Workspaces.updateOne (fun workspace ↦ workspace.workspaceId == workspaceId)
    fun workspace ↦
      { workspace with status := .revoked, encryptedKey := "", updatedAt := time }

end WorkspaceCluster

namespace PortalAdmin

/-- `DELETE /admin/v1/workspaces/:workspaceId` -/
def deleteWorkspace (deps : LifecycleDeps) (workspaceId : String) : Async Unit := do
  let apps ← Apps.find fun app ↦ app.workspaceId == workspaceId && app.state != .removed
  Program.forEach (fun (app : MasterApp) ↦ AppLifecycle.remove deps workspaceId app.appId true) apps
  WorkspaceCluster.revoke workspaceId

end PortalAdmin

end PrivosCluster
