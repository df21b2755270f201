import AieClaw.SessionManager

/-!
# Role permissions

The role tables of `src/rbac/permission-checker.ts` and the check that reads
them. The tables of the source are object literals, so a method named like a
member of `Object.prototype` finds that member instead of a role set.
-/

namespace PermissionChecker

open SessionManager (SessionRole)

inductive GlobalRole where
  | admin
  | member
  | viewer
  deriving DecidableEq

/-- The text of a role in messages. -/
def GlobalRole.text : GlobalRole → String
  | .admin => "admin"
  | .member => "member"
  | .viewer => "viewer"

def sessionRoleText : SessionRole → String
  | .owner => "owner"
  | .participant => "participant"

/-- The global role matrix; an empty set marks a public endpoint. -/
def GLOBAL_ROLE_PERMISSIONS : List (String × List GlobalRole) :=
  [
    ("system.status", []),
    ("user.register", [.admin]),
    ("user.approve", [.admin]),
    ("user.reject", [.admin]),
    ("user.list", [.admin, .member, .viewer]),
    ("user.update", [.admin]),
    ("sessions.create", [.admin, .member]),
    ("chat.send", [.admin, .member]),
    ("chat.history", [.admin, .member, .viewer]),
    ("sessions.list", [.admin, .member, .viewer]),
    ("sessions.resolve", [.admin, .member, .viewer]),
    ("session.invite", [.admin, .member]),
    ("session.removeMember", [.admin, .member]),
    ("session.members", [.admin, .member, .viewer]),
    ("session.leave", [.admin, .member, .viewer]),
    ("exec.approval.resolve", [.admin, .member]),
    ("auth.login", []),
    ("auth.refresh", [.admin, .member, .viewer]),
    ("auth.verify", []),
    ("user.logout", [.admin, .member, .viewer]),
    ("session.archive", [.admin, .member]),
    ("session.unarchive", [.admin, .member]),
    ("session.summary.generate", [.admin, .member]),
    ("session.summary.get", [.admin, .member, .viewer]),
    ("session.history.range", [.admin, .member, .viewer]),
    ("session.label.get", [.admin, .member, .viewer]),
    ("session.label.list", [.admin, .member, .viewer]),
    ("session.agent.update", [.admin, .member]),
    ("session.run.state", [.admin, .member, .viewer]),
    ("aiemas.agents.preDelete", [.admin, .member]),
    ("aiemas.agents.export", [.admin, .member]),
    ("aiemas.agents.import", [.admin]),
    ("aiemas.files.download", [.admin, .member]),
    ("aiemas.file.upload", [.admin, .member]),
    ("aiemas.fs.list", [.admin, .member, .viewer]),
    ("aiemas.agents.topology.list", [.admin, .member, .viewer]),
    ("aiemas.agents.topology.save", [.admin, .member]),
    ("aiemas.sessions.create", [.admin, .member]),
    ("aiemas.sessions.delete", [.admin, .member]),
    ("aiemas.sessions.list", [.admin, .member, .viewer]),
    ("aiemas.clawhub.config.get", [.admin, .member, .viewer]),
    ("aiemas.clawhub.agents.list", [.admin, .member, .viewer]),
    ("aiemas.clawhub.agenthub.list", [.admin, .member, .viewer]),
    ("aiemas.clawhub.config.save", [.admin]),
    ("aiemas.clawhub.healthy", [.admin]),
    ("aiemas.clawhub.registry-config.get", [.admin, .member, .viewer]),
    ("aiemas.clawhub.registry-config.save", [.admin]),
    ("aiemas.clawhub.nats-config.get", [.admin, .member, .viewer]),
    ("aiemas.clawhub.nats-config.save", [.admin]),
    ("aiemas.clawhub.agent.upload", [.admin, .member]),
    ("aiemas.clawhub.skillhub.list", [.admin, .member, .viewer]),
    ("aiemas.clawhub.skillhub.visibility.update", [.admin, .member]),
    ("aiemas.clawhub.skill.download", [.admin, .member]),
    ("aiemas.clawhub.skill.upload", [.admin, .member])
  ]

def GATEWAY_READ_METHODS : List String :=
  [
    "health", "doctor.memory.status", "logs.tail", "channels.status",
    "status", "usage.status", "usage.cost", "tts.status", "tts.providers",
    "models.list", "tools.catalog", "agents.list", "agent.identity.get",
    "skills.status", "voicewake.get", "sessions.list", "sessions.get",
    "sessions.preview", "sessions.resolve", "sessions.subscribe",
    "sessions.unsubscribe", "sessions.messages.subscribe",
    "sessions.messages.unsubscribe", "sessions.usage",
    "sessions.usage.timeseries", "sessions.usage.logs", "cron.list",
    "cron.status", "cron.runs", "gateway.identity.get", "system-presence",
    "last-heartbeat", "node.list", "node.describe", "chat.history",
    "config.get", "config.schema.lookup", "talk.config",
    "agents.files.list", "agents.files.get", "system.status", "auth.login",
    "auth.refresh", "auth.verify", "user.register", "session.members",
    "session.summary.get", "session.history.range", "session.label.get",
    "session.label.list"
  ]

def GATEWAY_WRITE_METHODS : List String :=
  [
    "send", "poll", "agent", "agent.wait", "wake", "talk.mode",
    "talk.speak", "tts.enable", "tts.disable", "tts.convert",
    "tts.setProvider", "voicewake.set", "node.invoke", "chat.send",
    "chat.abort", "sessions.create", "sessions.send", "sessions.abort",
    "browser.request", "push.test", "node.pending.enqueue",
    "session.invite", "session.removeMember", "session.leave",
    "session.archive", "session.unarchive", "session.summary.generate"
  ]

def GATEWAY_ADMIN_METHODS : List String :=
  [
    "channels.logout", "agents.create", "agents.update", "agents.delete",
    "skills.install", "skills.update", "secrets.reload", "secrets.resolve",
    "cron.add", "cron.update", "cron.remove", "cron.run", "sessions.patch",
    "sessions.reset", "sessions.delete", "sessions.compact", "connect",
    "chat.inject", "web.login.start", "web.login.wait", "set-heartbeats",
    "system-event", "agents.files.set", "user.list", "user.update",
    "user.approve", "user.reject"
  ]

def GATEWAY_ADMIN_PREFIXES : List String := ["exec.approvals.", "config.", "wizard.", "update."]

/-- The session role matrix, applied after the global one. -/
def SESSION_ROLE_PERMISSIONS : List (String × List SessionRole) :=
  [
    ("session.invite", [.owner, .participant]),
    ("session.removeMember", [.owner]),
    ("exec.approval.resolve", [.owner]),
    ("session.archive", [.owner]),
    ("session.unarchive", [.owner]),
    ("session.summary.generate", [.owner, .participant]),
    ("session.summary.get", [.owner, .participant]),
    ("session.history.range", [.owner, .participant]),
    ("session.agent.update", [.owner]),
    ("session.run.state", [.owner, .participant])
  ]

/-- The member names that every object literal inherits. -/
def inheritedMembers : List String :=
  ["constructor", "__defineGetter__", "__defineSetter__", "hasOwnProperty",
    "__lookupGetter__", "__lookupSetter__", "isPrototypeOf",
    "propertyIsEnumerable", "toString", "valueOf", "__proto__",
    "toLocaleString"]

/-- What reading a role table under a method name gives. -/
inductive TableEntry (Role : Type) where
  | undefined
  | roles (allowed : List Role)
  | inherited
  deriving DecidableEq

def readTable {Role : Type} (table : List (String × List Role)) (method : String) :
    TableEntry Role :=
  match table.find? fun entry => entry.1 = method with
  | some entry => .roles entry.2
  | none => if inheritedMembers.contains method then .inherited else .undefined

/-- The roles for a method outside the matrix; `none` for an unknown one. -/
def deriveAllowedRoles (method : String) : Option (List GlobalRole) :=
  if GATEWAY_READ_METHODS.contains method then some [.admin, .member, .viewer]
  else if GATEWAY_WRITE_METHODS.contains method then some [.admin, .member]
  else if GATEWAY_ADMIN_METHODS.contains method ||
      GATEWAY_ADMIN_PREFIXES.any fun start =>
        JsString.startsWith method start then
    some [.admin]
  else none

structure SessionPermissionContext where
  sessionKey : String
  sessionRole : Option SessionRole

inductive PermissionResult where
  | allowed
  | denied (code reason : String)
  | threw (message : String)

/-- Reading a member of `Object.prototype` as a role set. -/
def notARoleSet (variableName : String) : PermissionResult :=
  .threw (variableName ++ ".has is not a function")

def globalDenied (role : Option GlobalRole) (method : String) : PermissionResult :=
  .denied "PERMISSION_DENIED"
    ("Role '" ++ (role.map GlobalRole.text).getD "none" ++
      "' is not permitted to call '" ++ method ++ "'")

def sessionDenied (context : SessionPermissionContext) (method : String) : PermissionResult :=
  .denied "PERMISSION_DENIED"
    ("Session role '" ++
      (context.sessionRole.map sessionRoleText).getD "none" ++
      "' is not permitted to call '" ++ method ++ "' on session '" ++
      context.sessionKey ++ "'")

/-- The session-level part of the check. -/
def checkSessionRole (role : GlobalRole) (method : String) :
    Option SessionPermissionContext → PermissionResult
  | none => .allowed
  | some context =>
    if role = .admin then .allowed
    else
      match readTable SESSION_ROLE_PERMISSIONS method with
      | .undefined => .allowed
      | .inherited =>
        if context.sessionRole = none then sessionDenied context method
        else notARoleSet "sessionAllowed"
      | .roles sessionAllowed =>
        if context.sessionRole.any fun sessionRole =>
            sessionAllowed.contains sessionRole then
          .allowed
        else sessionDenied context method

/-- The matrix first, then the scope fallback, then the session role. -/
def checkPermission (userId : Option String) (role : Option GlobalRole) (method : String)
    (context : Option SessionPermissionContext) : PermissionResult :=
  let globalAllowed := readTable GLOBAL_ROLE_PERMISSIONS method
  if globalAllowed = .roles [] then .allowed
  else if userId = none then .allowed
  else
    match role, globalAllowed with
    | none, _ => globalDenied none method
    | some _, .inherited => notARoleSet "effectiveAllowed"
    | some role, .roles allowed =>
      if allowed.contains role then checkSessionRole role method context
      else globalDenied (some role) method
    | some role, .undefined =>
      if (deriveAllowedRoles method).any fun allowed =>
          allowed.contains role then
        checkSessionRole role method context
      else globalDenied (some role) method

end PermissionChecker
