import Mathlib

/-! The events a member can be notified of, and who is notified on which channels. -/

namespace Rovenue.Notifications

inductive NotificationChannel where
  | email | push | inapp
  deriving DecidableEq, Repr

inductive MemberRoleName where
  | owner | admin | developer | growth | customerSupport
  deriving DecidableEq, Repr

inductive RecipientScope where
  | self
  | projectRoles (roles : List MemberRoleName)
  | projectMembers
  | workspaceOwner
  deriving DecidableEq

structure NotificationEventDescriptor where
  key : String
  defaultChannels : List NotificationChannel
  forcedChannels : List NotificationChannel := []
  defaultEnabled : Bool
  recipientScope : RecipientScope
  pushAllowed : Bool
  deriving DecidableEq

def eventCatalog : List NotificationEventDescriptor := [
  { key := "revenue.digest.daily"
    defaultChannels := [.email, .inapp]
    defaultEnabled := true
    recipientScope := .self
    pushAllowed := false },
  { key := "revenue.digest.weekly"
    defaultChannels := [.email, .inapp]
    defaultEnabled := true
    recipientScope := .self
    pushAllowed := false },
  { key := "revenue.anomaly.detected"
    defaultChannels := [.email, .push, .inapp]
    defaultEnabled := true
    recipientScope := .projectRoles [.owner, .admin, .growth]
    pushAllowed := true },
  { key := "revenue.milestone.hit"
    defaultChannels := [.email, .inapp]
    defaultEnabled := false
    recipientScope := .projectMembers
    pushAllowed := false },
  { key := "revenue.churn.spike"
    defaultChannels := [.email, .push, .inapp]
    defaultEnabled := true
    recipientScope := .projectRoles [.owner, .admin, .growth]
    pushAllowed := true },
  { key := "billing.refund.detected"
    defaultChannels := [.email, .inapp]
    defaultEnabled := true
    recipientScope := .projectRoles [.owner, .admin]
    pushAllowed := true },
  { key := "billing.credit.low_balance"
    defaultChannels := [.email, .push, .inapp]
    defaultEnabled := true
    recipientScope := .projectRoles [.owner, .admin]
    pushAllowed := true },
  { key := "billing.invoice.failed"
    defaultChannels := [.email, .push, .inapp]
    forcedChannels := [.email]
    defaultEnabled := true
    recipientScope := .workspaceOwner
    pushAllowed := true },
  { key := "billing.invoice.paid"
    defaultChannels := [.email]
    forcedChannels := [.email]
    defaultEnabled := false
    recipientScope := .workspaceOwner
    pushAllowed := false },
  { key := "integration.store_credential.expired"
    defaultChannels := [.email, .push, .inapp]
    forcedChannels := [.email]
    defaultEnabled := true
    recipientScope := .projectRoles [.owner, .admin, .developer]
    pushAllowed := true },
  { key := "integration.webhook.failing"
    defaultChannels := [.email, .inapp]
    defaultEnabled := true
    recipientScope := .projectRoles [.owner, .admin, .developer]
    pushAllowed := false },
  { key := "integration.delivery.dead_letter"
    defaultChannels := [.email, .inapp]
    defaultEnabled := true
    recipientScope := .projectRoles [.owner, .admin, .developer]
    pushAllowed := false },
  { key := "team.member.invited"
    defaultChannels := [.email]
    forcedChannels := [.email]
    defaultEnabled := true
    recipientScope := .self
    pushAllowed := false },
  { key := "team.member.role_changed"
    defaultChannels := [.email, .inapp]
    defaultEnabled := true
    recipientScope := .self
    pushAllowed := false },
  { key := "team.member.removed"
    defaultChannels := [.email]
    forcedChannels := [.email]
    defaultEnabled := true
    recipientScope := .self
    pushAllowed := false },
  { key := "security.signin.new_device"
    defaultChannels := [.email, .push, .inapp]
    forcedChannels := [.email]
    defaultEnabled := true
    recipientScope := .self
    pushAllowed := true },
  { key := "security.oauth.account_linked"
    defaultChannels := [.email, .inapp]
    forcedChannels := [.email]
    defaultEnabled := true
    recipientScope := .self
    pushAllowed := false }]

def getEvent (key : String) : Option NotificationEventDescriptor :=
  eventCatalog.find? fun e => e.key = key

structure NotifyPayload where
  eventKey : String
  eventId : String
  projectId : Option String := none
  recipients : Option (List String) := none
  deriving DecidableEq

def NotifyPayload.project (payload : NotifyPayload) : Option String :=
  payload.projectId.filter (· ≠ "")

def membersOf (members : List (String × MemberRoleName)) (roles : List MemberRoleName) :
    List String :=
  (members.filter fun m => m.2 ∈ roles).map Prod.fst

def resolveRecipients (payload : NotifyPayload) (members : List (String × MemberRoleName)) :
    Except String (List String) :=
  match payload.recipients.filter (· ≠ []) with
  | some recipients => .ok recipients
  | none =>
    match getEvent payload.eventKey with
    | none => .error ("unknown event key: " ++ payload.eventKey)
    | some event =>
      match event.recipientScope with
      | .self =>
        .error ("event " ++ payload.eventKey ++ " has 'self' scope but no explicit recipients")
      | scope =>
        if payload.project = none then
          .error ("event " ++ payload.eventKey ++ " is project-scoped but projectId missing")
        else
          match scope with
          | .projectMembers => .ok (members.map Prod.fst)
          | .projectRoles roles => .ok (membersOf members roles)
          | .workspaceOwner => .ok (membersOf members [.owner])
          | .self => .ok []

structure UserChannels where
  email : Bool := true
  push : Bool := true
  locale : String := "en"

def enabledFor (event : NotificationEventDescriptor)
    (projectDefaults userOverrides : String → Option Bool) : Bool :=
  ((userOverrides event.key).or (projectDefaults event.key)).getD event.defaultEnabled

def channelEnabled (event : NotificationEventDescriptor) (userChannels : UserChannels)
    (enabled : Bool) (channel : NotificationChannel) : Bool :=
  channel ∈ event.forcedChannels || enabled && match channel with
    | .inapp => true
    | .email => userChannels.email
    | .push => userChannels.push && event.pushAllowed

def resolvePrefs (event : NotificationEventDescriptor) (userChannels : UserChannels)
    (projectDefaults userOverrides : String → Option Bool) : List NotificationChannel :=
  event.defaultChannels.filter
    (channelEnabled event userChannels (enabledFor event projectDefaults userOverrides))

theorem mem_eventCatalog {key : String} {event : NotificationEventDescriptor}
    (h : getEvent key = some event) : event ∈ eventCatalog := List.mem_of_find?_eq_some h

theorem defaultChannels_nodup : ∀ event ∈ eventCatalog, event.defaultChannels.Nodup := by decide

theorem resolvePrefs_nodup {key : String} {event : NotificationEventDescriptor}
    (h : getEvent key = some event) (userChannels : UserChannels)
    (projectDefaults userOverrides : String → Option Bool) :
    (resolvePrefs event userChannels projectDefaults userOverrides).Nodup :=
  (defaultChannels_nodup event (mem_eventCatalog h)).filter _

end Rovenue.Notifications
