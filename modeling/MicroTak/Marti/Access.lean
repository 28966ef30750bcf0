import MicroTak.Lib.Paths

/-!
# The URL table

Which roles may call which path on the Marti API port: an ordered table of ant patterns of which the
first one that matches decides.  What the table does not open is for the administrator only.
-/

namespace MicroTak.Marti

open Paths

inductive Role where
  | anonymous
  | nonAdminUi
  | webtak
  | admin
  | readonly
  | noClientCert
  | federate
  | xmpp
  | nonexistent
  -- Expressions of the official table, compared as they stand.
  | userManagementProvider
  | locateProvider
  deriving DecidableEq

/-- A rule, with its pattern cut at the slashes. -/
structure Rule where
  method : Option String
  pattern : List Ant
  access : List Role
  deriving DecidableEq

private abbrev api (rest : List Ant) : List Ant := "Marti" :: "api" :: rest

def rules : List Rule :=
  [⟨none, api ["plugins", .star, "submit"], [.anonymous]⟩,
    ⟨none, api ["plugins", .star, "submit", "result"], [.anonymous]⟩,
    ⟨none, ["users", .stars], [.admin]⟩,
    ⟨none, api ["datafeeds", .stars], [.anonymous]⟩,
    ⟨none, api ["inputs", .stars], [.admin]⟩,
    ⟨"DELETE", api ["inputs", .stars], [.admin]⟩,
    ⟨"DELETE", api ["missions", .stars], [.anonymous]⟩,
    ⟨"DELETE", api ["maplayers", .stars], [.anonymous]⟩,
    ⟨none, api ["maplayers", .stars], [.anonymous]⟩,
    ⟨"DELETE", api ["injectors", "cot", "uid", .stars], [.admin]⟩,
    ⟨none, api ["federategroups", .stars], [.admin]⟩,
    ⟨"DELETE", api ["federategroups", .stars], [.admin]⟩,
    ⟨none, api ["federategroupsmap", .stars], [.admin]⟩,
    ⟨"DELETE", api ["federategroupsmap", .stars], [.admin]⟩,
    ⟨none, api ["federate-outbound-groups-hop-limit", .stars], [.admin]⟩,
    ⟨"DELETE", api ["federate-outbound-groups-hop-limit", .stars], [.admin]⟩,
    ⟨none, api ["federatecagroups", .stars], [.admin]⟩,
    ⟨"DELETE", api ["federatecagroups", .stars], [.admin]⟩,
    ⟨none, api ["federates", .stars], [.admin]⟩,
    ⟨none, api ["federatedetails", .stars], [.admin]⟩,
    ⟨none, api ["federategroupconfig", .stars], [.admin]⟩,
    ⟨none, api ["groupprefix", .stars], [.admin]⟩,
    ⟨none, api ["outgoingconnections", .stars], [.admin]⟩,
    ⟨"DELETE", api ["outgoingconnections", .stars], [.admin]⟩,
    ⟨none, api ["outgoingconnectionstatus", .stars], [.admin]⟩,
    ⟨none, api ["federatecertificates", .stars], [.admin]⟩,
    ⟨"DELETE", api ["federatecertificates", .stars], [.admin]⟩,
    ⟨none, api ["federatecontacts", .stars], [.admin]⟩,
    ⟨none, api ["activeconnections", .stars], [.admin]⟩,
    ⟨"DELETE", api ["device", "profile", .stars], [.admin]⟩,
    ⟨"GET", api ["config"], [.admin]⟩,
    ⟨"GET", api ["security", "isSecure"], [.admin]⟩,
    ⟨"DELETE", ["Marti", "vcm", .stars], [.admin]⟩,
    ⟨"GET", api ["xmpp", .stars], [.xmpp]⟩,
    ⟨"POST", api ["xmpp", .stars], [.xmpp]⟩,
    ⟨"PUT", api ["xmpp", .stars], [.xmpp]⟩,
    ⟨"DELETE", api ["xmpp", .stars], [.xmpp]⟩,
    ⟨none, api ["certadmin", "cert", .stars], [.admin]⟩,
    ⟨"DELETE", api ["certadmin", "cert", .stars], [.admin]⟩,
    ⟨none, api ["retention", "policy", .stars], [.admin]⟩,
    ⟨none, api ["retention", "service", "schedule", .stars], [.admin]⟩,
    ⟨none, api ["retention", .stars], [.admin]⟩,
    ⟨none, api ["token", "access"], [.anonymous]⟩,
    ⟨none, api ["token", .stars], [.admin]⟩,
    ⟨"DELETE", api ["token", .stars], [.admin]⟩,
    ⟨none, api ["subscriptions", "add", .stars], [.admin]⟩,
    ⟨"DELETE", api ["subscriptions", "delete", .stars], [.admin]⟩,
    ⟨none, ["Marti", "sync", "missionquery"], [.anonymous, .federate]⟩,
    ⟨none, ["Marti", "sync", "missionupload"], [.anonymous, .federate]⟩,
    ⟨none, ["Marti", "sync", "search"], [.anonymous, .federate]⟩,
    ⟨none, ["Marti", "CotQueryServlet"], [.admin]⟩,
    ⟨none, api ["cot", "search", .stars], [.admin]⟩,
    ⟨none, api ["tls", "makeClientKeyStore"], [.noClientCert]⟩,
    ⟨none, api ["tls", "config"], [.noClientCert]⟩,
    ⟨none, api ["tls", "signClient"], [.noClientCert]⟩,
    ⟨none, api ["tls", "signClient", "v2"], [.noClientCert]⟩,
    ⟨"GET", api ["tls", "profile", "enrollment"], [.noClientCert]⟩,
    ⟨"GET", api ["tls", "profile", "tool", .stars], [.noClientCert]⟩,
    ⟨none, ["Marti", "ExportMission.jsp"], [.admin]⟩,
    ⟨none, ["Marti", "error", .stars], [.anonymous, .noClientCert, .federate]⟩,
    ⟨none, ["error"], [.anonymous, .noClientCert, .federate]⟩,
    ⟨"DELETE", api ["properties", .stars], [.anonymous]⟩,
    ⟨"GET", ["Marti", "menubar.html", .stars], [.nonAdminUi]⟩,
    ⟨none, api ["missions", .stars], [.anonymous]⟩,
    ⟨none, api ["sync", .stars], [.anonymous]⟩,
    ⟨none, api ["cot", .stars], [.anonymous]⟩,
    ⟨none, api ["cops", .stars], [.anonymous]⟩,
    ⟨none, api ["properties", .stars], [.anonymous]⟩,
    ⟨"DELETE", api ["properties", .stars], [.anonymous]⟩,
    ⟨none, api ["files", .stars], [.anonymous]⟩,
    ⟨"DELETE", api ["files", .stars], [.anonymous]⟩,
    ⟨none, api ["groups", "update", .stars], [.admin]⟩,
    ⟨none, api ["groups", "activeForce"], [.admin]⟩,
    ⟨none, api ["groups", "user"], [.admin]⟩,
    ⟨none, api ["groups", .stars], [.anonymous]⟩,
    ⟨"GET", api ["device", "profile", "tool", .stars], [.anonymous]⟩,
    ⟨"GET", api ["device", "profile", "connection"], [.anonymous]⟩,
    ⟨"GET", api ["device", "profile", "enrollment"], [.anonymous]⟩,
    ⟨"GET", api ["device", "profile", .star, "missionpackage"], [.anonymous]⟩,
    ⟨"GET", api ["clientEndPoints", .stars], [.anonymous]⟩,
    ⟨"GET", api ["contacts", .stars], [.anonymous]⟩,
    ⟨"GET", ["Marti", "clients", .stars], [.nonAdminUi]⟩,
    ⟨"GET", api ["subscriptions", "all", .stars], [.anonymous]⟩,
    ⟨"GET", api ["subscription", .stars], [.anonymous]⟩,
    ⟨"POST", ["Marti", "vcu", .stars], [.anonymous]⟩,
    ⟨"GET", ["Marti", "vcm", .stars], [.anonymous]⟩,
    ⟨"POST", ["Marti", "vcm", .stars], [.anonymous]⟩,
    ⟨"DELETE", ["Marti", "vcm", .stars], [.admin]⟩,
    ⟨"POST", ["Marti", "vcs", .stars], [.anonymous]⟩,
    ⟨none, api ["video", .stars], [.anonymous]⟩,
    ⟨none, ["Marti", "VideoManager.jsp"], [.nonAdminUi]⟩,
    ⟨none, ["Marti", "VideoUpload.jsp"], [.nonAdminUi]⟩,
    ⟨none, ["Marti", "VideoSend.jsp"], [.nonAdminUi]⟩,
    ⟨"POST", ["Marti", "TracksKML", .stars], [.anonymous]⟩,
    ⟨"POST", ["Marti", "ErrorLog", .stars], [.anonymous]⟩,
    ⟨"GET", ["Marti", "ErrorLog", .stars], [.admin]⟩,
    ⟨"DELETE", ["Marti", "ErrorLog", .stars], [.admin]⟩,
    ⟨none, ["Marti", "ErrorLogManager.jsp"], [.admin]⟩,
    ⟨none, ["Marti", "Missions.jsp"], [.nonAdminUi]⟩,
    ⟨none, ["Marti", "Missions.js"], [.nonAdminUi]⟩,
    ⟨none, ["Marti", "MissionEditor.jsp"], [.nonAdminUi]⟩,
    ⟨none, ["Marti", "MissionInvite.jsp"], [.nonAdminUi]⟩,
    ⟨none, ["Marti", "MissionSend.jsp"], [.nonAdminUi]⟩,
    ⟨"GET", api ["citrap", .stars], [.anonymous]⟩,
    ⟨"POST", api ["citrap", .stars], [.anonymous]⟩,
    ⟨"PUT", api ["citrap", .stars], [.anonymous]⟩,
    ⟨"DELETE", api ["citrap", .stars], [.anonymous]⟩,
    ⟨"GET", api ["excheck", .stars], [.anonymous]⟩,
    ⟨"POST", api ["excheck", .stars], [.anonymous]⟩,
    ⟨"PUT", api ["excheck", .stars], [.anonymous]⟩,
    ⟨"DELETE", api ["excheck", .stars], [.anonymous]⟩,
    ⟨none, ["Marti", "ExCheck.jsp"], [.nonAdminUi]⟩,
    ⟨none, api ["subscriptions", .star, "filter"], [.anonymous]⟩,
    ⟨"DELETE", api ["subscriptions", .star, "filter"], [.anonymous]⟩,
    ⟨none, api ["version", .stars], [.anonymous]⟩,
    ⟨none, api ["node", "id", .stars], [.anonymous]⟩,
    ⟨none, ["Marti", "footer.jsp"], [.nonAdminUi]⟩,
    ⟨none, ["Marti", "images", .star], [.nonAdminUi]⟩,
    ⟨none, ["Marti", "jquery", .stars], [.nonAdminUi, .noClientCert]⟩,
    ⟨none, ["Marti", "lib", .stars], [.nonAdminUi, .noClientCert]⟩,
    ⟨none, ["Marti", "mil-std-2525b", .star], [.nonAdminUi]⟩,
    ⟨none, ["Marti", "icons", .star], [.nonAdminUi]⟩,
    ⟨none, api ["home", .stars], [.anonymous]⟩,
    ⟨none, api ["util", "isAdmin", .stars], [.admin]⟩,
    ⟨none, api ["util", "user", .stars], [.anonymous]⟩,
    ⟨none, ["Marti"], [.anonymous]⟩,
    ⟨none, ["Marti"], [.anonymous]⟩,
    ⟨none, ["Marti", "sync", "content"], [.anonymous]⟩,
    ⟨none, ["Marti", "sync", "missioncreate"], [.anonymous]⟩,
    ⟨"GET", api ["icon", .stars], [.anonymous]⟩,
    ⟨"GET", api ["iconset", .stars], [.anonymous]⟩,
    ⟨"GET", api ["iconseturl", .stars], [.anonymous]⟩,
    ⟨"GET", api ["cot", "images", .stars], [.anonymous]⟩,
    ⟨none, ["Marti", "authentication.jsp"], [.nonAdminUi]⟩,
    ⟨"DELETE", ["Marti", .stars], [.nonexistent]⟩,
    ⟨"OPTIONS", ["Marti", .stars], [.nonexistent]⟩,
    ⟨none, ["Marti", "ContactsJson.jsp"], [.nonAdminUi]⟩,
    ⟨none, ["Marti", "index.html"], [.nonAdminUi]⟩,
    ⟨none, ["Marti", "ListDataFerryFiles.jsp"], [.nonAdminUi]⟩,
    ⟨none, ["Marti", "ListContacts.jsp"], [.nonAdminUi]⟩,
    ⟨none, ["Marti", "ListContactsRefresh.jsp"], [.nonAdminUi]⟩,
    ⟨none, ["Marti", "sync"], [.anonymous]⟩,
    ⟨none, ["Marti", "KmlMasterSA", .stars], [.anonymous]⟩,
    ⟨none, ["Marti", "LatestKML"], [.anonymous]⟩,
    ⟨none, ["Marti", "EnterpriseSync.jsp"], [.nonAdminUi]⟩,
    ⟨none, ["Marti", "ExportMissionKML", .stars], [.anonymous]⟩,
    ⟨none, ["Marti", "trackExport.jsp"], [.nonAdminUi]⟩,
    ⟨none, ["Marti", "GetTime"], [.anonymous]⟩,
    ⟨none, api ["iconurl"], [.anonymous]⟩,
    ⟨none, api ["cop", .stars], [.anonymous]⟩,
    ⟨none, ["webtak", .stars], [.webtak]⟩,
    ⟨none, ["webtak-plugins", .stars], [.webtak]⟩,
    ⟨none, ["takproto", .stars], [.anonymous]⟩,
    ⟨none, ["Marti", "GeoCache", .stars], [.anonymous]⟩,
    ⟨none, ["Marti", "async", "chat"], [.anonymous]⟩,
    ⟨none, ["Marti", "draw", .stars], [.nonAdminUi]⟩,
    ⟨none, ["Marti", "sync", "upload"], [.anonymous]⟩,
    ⟨none, ["Marti", "sync", "delete"], [.anonymous]⟩,
    ⟨none, ["Marti", "upload.jsp"], [.nonAdminUi]⟩,
    ⟨none, ["Marti", "sendMissionPackage.jsp"], [.nonAdminUi]⟩,
    ⟨none, ["Marti", "css", .stars], [.nonAdminUi, .noClientCert]⟩,
    ⟨none, api ["ver", .stars], [.anonymous]⟩,
    ⟨none, ["actuator", .stars], [.admin]⟩,
    ⟨none, ["Marti", "metrics", .stars], [.admin]⟩,
    ⟨none, ["Marti", "mla", .stars], [.admin]⟩,
    ⟨none, ["oauth", "token"], [.noClientCert]⟩,
    ⟨none, ["oauth", "authorize"], [.noClientCert]⟩,
    ⟨none, ["oauth", "check_token"], [.anonymous]⟩,
    ⟨none, ["login", .stars], [.noClientCert]⟩,
    ⟨none, ["Marti", "login", .stars], [.noClientCert]⟩,
    ⟨none, ["register", "admin", .stars], [.admin]⟩,
    ⟨none, ["register", .stars], [.userManagementProvider]⟩,
    ⟨none, ["locate", .stars], [.locateProvider]⟩,
    ⟨none, ["schedule", .stars], [.admin]⟩,
    ⟨none, ["user-management", .stars], [.admin]⟩,
    ⟨none, ["vbm", "api", "classification"], [.anonymous]⟩,
    ⟨none, ["vbm", .stars], [.admin]⟩,
    ⟨none, ["Marti", "MissionManager.html"], [.nonAdminUi]⟩,
    ⟨none, api ["pagedmissions"], [.nonAdminUi]⟩,
    ⟨none, api ["missioncount"], [.nonAdminUi]⟩,
    ⟨none, ["vbm", "api", "config"], [.nonAdminUi]⟩,
    ⟨none, api ["util", "isAdmin"], [.nonAdminUi]⟩,
    ⟨none, api ["security", "isSecure"], [.nonAdminUi]⟩,
    ⟨none, ["Marti", "favicon.ico"], [.nonAdminUi]⟩,
    ⟨none, ["Marti", "tablesorter", .stars], [.nonAdminUi]⟩,
    ⟨none, ["Marti", "static", .stars], [.nonAdminUi]⟩,
    ⟨none, ["Marti", .stars], [.admin]⟩,
    ⟨none, [.stars], [.anonymous]⟩,
    ⟨none, ["Marti", "documentation", .stars], [.admin]⟩]

def roles (admin : Bool) : List Role :=
  if admin then [.admin, .readonly, .anonymous, .nonAdminUi, .webtak]
    else [.anonymous, .nonAdminUi, .webtak]

def Rule.applies (rule : Rule) (method path : String) : Bool :=
  rule.method.all (Text.eqIgnoreAsciiCase · method) && matchSegments rule.pattern (segments path)

def Rule.permits (rule : Rule) (admin : Bool) : Bool :=
  rule.access.any (· ∈ roles admin)

/-- Whether the table lets a user call a path.  The administration API of MicroTAK checks for the
administrator itself, and a path without a rule is open. -/
def allowed (method path : String) (admin : Bool) : Bool :=
  if matchSegments ["Marti", "api", "admin", .stars] (segments path) then true
  else
    match rules.find? (·.applies method path) with
    | some rule => rule.permits admin
    | none => true

/-! ### The first match decides -/

def Rule.Matches (rule : Rule) (method path : String) : Prop :=
  (∀ m ∈ rule.method, Text.eqIgnoreAsciiCase m method = true) ∧
    Spans (rule.pattern.map Ant.text) (segments path)

def FirstMatch (method path : String) (rule : Rule) : Prop :=
  ∃ before after, rules = before ++ rule :: after ∧ rule.Matches method path ∧ ∀ r ∈ before,
    ¬ r.Matches method path

variable {method path : String} {rule : Rule}

private theorem applies_iff (h : rule ∈ rules) : rule.applies method path = true ↔
    rule.Matches method path := by
  have hwritten : ∀ r ∈ rules, (r.pattern.map Ant.text).map Ant.parse = r.pattern := by
    decide +kernel
  rw [Rule.applies, Rule.Matches, ← matchSegments_parse, hwritten rule h, Bool.and_eq_true,
    Option.all_eq_true]
  rfl

theorem find?_rules_iff : rules.find? (·.applies method path) = some rule ↔
    FirstMatch method path rule := by
  rw [List.find?_eq_some_iff_append]
  constructor
  · rintro ⟨happlies, before, after, hrules, hbefore⟩
    refine ⟨before, after, hrules, (applies_iff (by simp [hrules])).1 happlies, fun r hr hmatches =>
      ?_⟩
    simpa [(applies_iff (by simp [hrules, hr])).2 hmatches] using hbefore r hr
  · rintro ⟨before, after, hrules, hmatches, hbefore⟩
    refine ⟨(applies_iff (by simp [hrules])).2 hmatches, before, after, hrules, fun r hr => ?_⟩
    simpa using mt (applies_iff (by simp [hrules, hr])).1 (hbefore r hr)

/-- A path is matched as its pattern says, and, but for the administration API, the first rule that
matches decides. -/
theorem allowed_by_first_match (method path : String) (admin : Bool) :
    (∀ pattern, antMatch pattern path = true ↔ Spans (segments pattern) (segments path)) ∧
      (Spans (segments "/Marti/api/admin/**") (segments path) → allowed method path admin = true) ∧
      (¬ Spans (segments "/Marti/api/admin/**") (segments path) →
        ∃ rule, FirstMatch method path rule ∧ allowed method path admin = rule.permits admin) := by
  have hguard : matchSegments (api ["admin", .stars]) (segments path) = true ↔
      Spans (segments "/Marti/api/admin/**") (segments path) := by
    rw [← matchSegments_parse]
    rw [show (segments "/Marti/api/admin/**").map Ant.parse = api ["admin", .stars] by
      decide +kernel]
  refine ⟨fun pattern => matchSegments_parse, fun h => if_pos (hguard.2 h), fun h => ?_⟩
  cases hfound : rules.find? (·.applies method path) with
  | some rule =>
    refine ⟨rule, find?_rules_iff.1 hfound, ?_⟩
    rw [allowed, if_neg (mt hguard.1 h), hfound]
  | none =>
    -- The table has a rule for every path.
    have hrule : (⟨none, [.stars], [.anonymous]⟩ : Rule) ∈ rules := by decide +kernel
    simpa [Rule.applies] using List.find?_eq_none.1 hfound _ hrule

/-- The table alone would refuse the administrator's own `DELETE`. -/
theorem admin_delete_not_by_table :
    ∃ rule, FirstMatch "DELETE" "/Marti/api/admin/devices/x/block" rule ∧
      allowed "DELETE" "/Marti/api/admin/devices/x/block" true ≠ rule.permits true :=
  ⟨⟨"DELETE", ["Marti", .stars], [.nonexistent]⟩,
    find?_rules_iff.1 (by decide +kernel), by decide +kernel⟩

end MicroTak.Marti
