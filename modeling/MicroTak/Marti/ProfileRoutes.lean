import MicroTak.Marti.Access

/-!
# Device profiles and the URL table

Devices fetch their profiles under the path the administrator manages them at, so who may do what is
left to the URL table.  The router and the table read a path each in its own way.
-/

namespace MicroTak.Marti

open Paths Text

inductive ProfileHandler where
  -- What devices call.
  | connection
  | tool
  | deviceToolFile
  | missionPackage
  | missionPackageHead
  -- The administration.
  | list
  | one
  | create
  | update
  | delete
  | files
  | file
  | addFile
  | deleteFile
  | directories
  | listDirectories
  | addDirectories
  | clearDirectories
  | send
  deriving DecidableEq

def ProfileHandler.administers : ProfileHandler → Bool
  | .connection | .tool | .deviceToolFile | .missionPackage | .missionPackageHead => false
  | _ => true

structure MethodRouter where
  get : Option ProfileHandler := none
  head : Option ProfileHandler := none
  post : Option ProfileHandler := none
  put : Option ProfileHandler := none
  delete : Option ProfileHandler := none
  deriving DecidableEq

/-- A HEAD request without a handler of its own goes to the one for GET. -/
def MethodRouter.handler (router : MethodRouter) (method : String) : Option ProfileHandler :=
  match method with
  | "GET" => router.get
  | "HEAD" => router.head.or router.get
  | "POST" => router.post
  | "PUT" => router.put
  | "DELETE" => router.delete
  | _ => none

def below (rest : List Segment) : List Segment :=
  "" :: "Marti" :: "api" :: "device" ::
    "profile" :: rest

def profileRoutes : List (List Segment × MethodRouter) :=
  [(below [], { get := some .list }),
    (below ["connection"], { get := some .connection }),
    (below ["directories"], { get := some .directories }),
    (below ["tool", .param], { get := some .tool }),
    (below ["tool", .param, "file"], { get := some .deviceToolFile }),
    (below [.param, "directories"],
      { get := some .listDirectories, delete := some .clearDirectories }),
    (below [.param, "directories", .param], { put := some .addDirectories }),
    (below [.param, "missionpackage"],
      { get := some .missionPackage, head := some .missionPackageHead }),
    (below [.param],
      { get := some .one, post := some .create, put := some .update, delete := some .delete }),
    (below [.param, "files"], { get := some .files }),
    (below [.param, "file"], { put := some .addFile }),
    (below [.param, "file", .param], { get := some .file, delete := some .deleteFile }),
    (below [.param, "send"], { post := some .send })]

/-- The handler of the profiles' router for a request, if it has one. -/
def dispatch (method path : String) : Option ProfileHandler :=
  (find profileRoutes (Text.split '/' path)).bind (·.handler method)

/-! ### The part of the table profiles fall under -/

def profilePath : List String := ["Marti", "api", "device", "profile"]

/-- The rules that some path below the one of profiles can match. -/
theorem rules_reaching_profiles : rules.filter (fun rule => reaches rule.pattern profilePath) =
      [⟨"DELETE", profilePath.map .literal ++ [.stars], [.admin]⟩,
        ⟨"GET", profilePath.map .literal ++ [.literal "tool", .stars], [.anonymous]⟩,
        ⟨"GET", profilePath.map .literal ++ [.literal "connection"], [.anonymous]⟩,
        ⟨"GET", profilePath.map .literal ++ [.literal "enrollment"], [.anonymous]⟩,
        ⟨"GET", profilePath.map .literal ++ [.star, .literal "missionpackage"], [.anonymous]⟩,
        ⟨"DELETE", ["Marti", .stars], [.nonexistent]⟩,
        ⟨"OPTIONS", ["Marti", .stars], [.nonexistent]⟩,
        ⟨none, ["Marti", .stars], [.admin]⟩, ⟨none, [.stars], [.anonymous]⟩] := by
  decide +kernel

section Table

variable {method path : String} {more : List String} (h : segments path = profilePath ++ more)
include h

private theorem find?_rules : rules.find? (·.applies method path) =
      (rules.filter fun rule => reaches rule.pattern profilePath).find?
      (·.applies method path) := by
  rw [List.find?_filter]
  congr 1
  funext rule
  by_cases happlies : rule.applies method path = true
  · have hmatch := (Bool.and_eq_true_iff.1 happlies).2
    rw [h] at hmatch
    simp [reaches_of_matchSegments hmatch]
  · simp [happlies]

theorem allowed_profile : allowed method path false = (eqIgnoreAsciiCase "GET" method &&
      (matchSegments ["tool", .stars] more || matchSegments ["connection"] more ||
        matchSegments ["enrollment"] more ||
        matchSegments [.star, "missionpackage"] more)) := by
  have hadmin : matchSegments ["Marti", "api", "admin", .stars]
      (profilePath ++ more) = false := rfl
  have hmarti : matchSegments ["Marti", .stars] (profilePath ++ more) = true :=
    matchSegments_stars _
  rw [allowed, find?_rules h, rules_reaching_profiles]
  simp only [List.find?, Rule.applies, Option.all, h, hmarti, matchSegments_literals,
    matchSegments_stars]
  cases hget : eqIgnoreAsciiCase "GET" method with
  | true =>
    have hmethod := eqIgnoreAsciiCase_iff.1 hget
    have hdelete : eqIgnoreAsciiCase "DELETE" method = false := by
      rw [eqIgnoreAsciiCase, ← hmethod]
      decide +kernel
    have hoptions : eqIgnoreAsciiCase "OPTIONS" method = false := by
      rw [eqIgnoreAsciiCase, ← hmethod]
      decide +kernel
    rw [hdelete, hoptions]
    cases matchSegments ["tool", .stars] more
    · cases matchSegments ["connection"] more
      · cases matchSegments ["enrollment"] more
        · cases matchSegments [.star, "missionpackage"] more <;> rfl
        · rfl
      · rfl
    · rfl
  | false =>
    cases eqIgnoreAsciiCase "DELETE" method
    · cases eqIgnoreAsciiCase "OPTIONS" method <;> rfl
    · rfl

end Table

/-! ### Administration that others reach -/

/-- A profile that is named like a path opened for devices, or a file asked for as one of such a
profile. -/
def Exposed (method path : String) : Prop :=
  method = "GET" ∧ ∃ more, Text.split '/' path = "" :: profilePath ++ more ∧
    (more = ["tool"] ∨ more = ["enrollment"] ∨ ∃ id, more = ["tool", "file", id])

variable {router : MethodRouter} {handler : ProfileHandler} {rest : List Segment} {path : String}
  {more : List String}

theorem handler_method {method : String} (h : router.handler method = some handler) :
    method = "GET" ∧ router.get = some handler ∨
    method ≠ "GET" ∧ eqIgnoreAsciiCase "GET" method = false := by
  unfold MethodRouter.handler at h
  split at h
  · exact .inl ⟨rfl, h⟩
  iterate 4
    · exact .inr ⟨by decide, by decide +kernel⟩
  · cases h

theorem fits_below {path : List String} : Fits (below rest) path ↔ ∃ more,
    path = "" :: profilePath ++ more ∧ Fits rest more := by
  simp only [below, fits_literal]
  constructor
  · rintro ⟨_, rfl, _, rfl, _, rfl, _, rfl, more, rfl, hrest⟩
    exact ⟨more, rfl, hrest⟩
  · rintro ⟨more, rfl, hrest⟩
    exact ⟨_, rfl, _, rfl, _, rfl, _, rfl, more, rfl, hrest⟩

theorem mem_profileRoutes {pattern : List Segment} (h : (pattern, router) ∈ profileRoutes) :
    ∃ rest, pattern = below rest ∧ .literal "" ∉ rest := by
  have hall : ∀ entry ∈ profileRoutes, entry.1 = below (entry.1.drop 5) ∧
      .literal "" ∉ entry.1.drop 5 := by
    decide +kernel
  exact ⟨_, hall _ h⟩

/-- What follows the path of profiles in the routes by which a GET reaches the administration. -/
def administration : List (List Segment) :=
  [[], ["directories"], [.param, "directories"], [.param], [.param, "files"],
    [.param, "file", .param]]

private theorem mem_administration (hroute : (below rest, router) ∈ profileRoutes)
    (hget : router.get = some handler) (hadministers : handler.administers = true) :
    rest ∈ administration := by
  have hall : ∀ entry ∈ profileRoutes, entry.2.get.any (·.administers) = true →
      entry.1.drop 5 ∈ administration := by
    decide +kernel
  exact hall _ hroute (by rw [hget]; exact hadministers)

/-- A route that names a segment comes before the ones of the administration where it fits. -/
theorem administration_paths (hsplit : split '/' path = "" :: profilePath ++ more)
    (hdispatch : dispatch "GET" path = some handler) (hadministers : handler.administers = true) :
    more = [] ∨ more = ["directories"] ∨
    (∃ name, name ≠ "tool" ∧ (more = [name, "directories"] ∨ more = [name, "files"])) ∨
      (∃ name, name ≠ "connection" ∧ more = [name]) ∨ ∃ name id, more = [name, "file", id] := by
  obtain ⟨router, hfind, hget⟩ := Option.bind_eq_some_iff.1 hdispatch
  obtain ⟨pattern, hroute, hfits, hfirst⟩ := find_eq_some hfind
  obtain ⟨rest, rfl, -⟩ := mem_profileRoutes hroute
  have hfits : Fits rest more := by
    obtain ⟨others, hothers, hfits⟩ := fits_below.1 hfits
    rw [hsplit, List.append_cancel_left_eq] at hothers
    exact hothers ▸ hfits
  have hnot : ∀ {other : List Segment} {router : MethodRouter}, (below other, router) ∈
      profileRoutes → Fits other more → ¬ Preferred other rest := fun hmem hfits hpreferred =>
    hfirst _ _ hmem (fits_below.2 ⟨more, hsplit, hfits⟩)
      (.there (.there (.there (.there (.there hpreferred)))))
  have htool : (below ["tool", .param], { get := some .tool }) ∈ profileRoutes := by decide
  have hconnection : (below ["connection"], { get := some .connection }) ∈
    profileRoutes := by decide
  have hmem := mem_administration hroute hget hadministers
  simp only [administration, List.mem_cons, List.not_mem_nil, or_false] at hmem
  rcases hmem with rfl | rfl | rfl | rfl | rfl | rfl
  · exact .inl (fits_nil.1 hfits)
  · obtain ⟨_, rfl, hnil⟩ := fits_literal.1 hfits
    exact .inr (.inl (by rw [fits_nil.1 hnil]))
  · obtain ⟨name, _, rfl, hname, hliteral⟩ := fits_param.1 hfits
    obtain ⟨_, rfl, hnil⟩ := fits_literal.1 hliteral
    obtain rfl := fits_nil.1 hnil
    refine .inr (.inr (.inl ⟨name, ?_, .inl rfl⟩))
    rintro rfl
    exact hnot htool (by simp) .here
  · obtain ⟨name, _, rfl, hname, hnil⟩ := fits_param.1 hfits
    obtain rfl := fits_nil.1 hnil
    refine .inr (.inr (.inr (.inl ⟨name, ?_, rfl⟩)))
    rintro rfl
    exact hnot hconnection (by simp) .here
  · obtain ⟨name, _, rfl, hname, hliteral⟩ := fits_param.1 hfits
    obtain ⟨_, rfl, hnil⟩ := fits_literal.1 hliteral
    obtain rfl := fits_nil.1 hnil
    refine .inr (.inr (.inl ⟨name, ?_, .inr rfl⟩))
    rintro rfl
    exact hnot htool (by simp) .here
  · obtain ⟨name, _, rfl, hname, hliteral⟩ := fits_param.1 hfits
    obtain ⟨_, rfl, hparam⟩ := fits_literal.1 hliteral
    obtain ⟨id, _, rfl, hid, hnil⟩ := fits_param.1 hparam
    obtain rfl := fits_nil.1 hnil
    exact .inr (.inr (.inr (.inr ⟨name, id, rfl⟩)))

/-- A request that reaches the administration of profiles is the administrator's alone unless it is
exposed. -/
theorem profile_administration_closed_iff {method path : String} {handler : ProfileHandler}
    (hdispatch : dispatch method path = some handler) (hadministers : handler.administers = true) :
    allowed method path false = false ↔ ¬ Exposed method path := by
  obtain ⟨router, hfind, hhandler⟩ := Option.bind_eq_some_iff.1 hdispatch
  obtain ⟨pattern, hroute, hfits, -⟩ := find_eq_some hfind
  obtain ⟨rest, rfl, hempty⟩ := mem_profileRoutes hroute
  obtain ⟨more, hsplit, hrest⟩ := fits_below.1 hfits
  have hexposed : Exposed method path ↔
      method = "GET" ∧
        (more = ["tool"] ∨ more = ["enrollment"] ∨ ∃ id, more = ["tool", "file", id]) := by
    refine and_congr_right fun _ => ⟨?_, fun h => ⟨more, hsplit, h⟩⟩
    rintro ⟨others, hothers, h⟩
    rw [hsplit, List.append_cancel_left_eq] at hothers
    exact hothers ▸ h
  have hmore : more.filter (· ≠ "") = more := List.filter_eq_self.2 fun s hs => by
    simpa using hrest.ne_empty hempty s hs
  have hsegments : segments path = profilePath ++ more := by
    rw [segments, hsplit, List.cons_append, List.filter_cons_of_neg (by simp),
      List.filter_append, hmore]
    rfl
  rw [allowed_profile hsegments, hexposed]
  rcases handler_method hhandler with ⟨rfl, -⟩ | ⟨hmethod, hget⟩
  · have hpaths := administration_paths hsplit hdispatch hadministers
    rcases hpaths with rfl | rfl | ⟨name, hname, rfl | rfl⟩ | ⟨name, hname, rfl⟩ | ⟨name, id, rfl⟩
    · simp [matchSegments, Ant.star]
    · simp
    · simp [matchSegments, hname.symm]
    · simp [matchSegments, hname.symm]
    · simp [matchSegments, hname.symm, @eq_comm _ name]
    · simp [matchSegments, @eq_comm _ name]
  · simp [hget, hmethod]

theorem profile_administration_closed_send :
    dispatch "POST" "/Marti/api/device/profile/Red/send" = some .send ∧
      (allowed "POST" "/Marti/api/device/profile/Red/send" false = false ↔
        ¬ Exposed "POST" "/Marti/api/device/profile/Red/send") := by
  have hsend : dispatch "POST" "/Marti/api/device/profile/Red/send" = some .send := by
    decide +kernel
  exact ⟨hsend, profile_administration_closed_iff hsend rfl⟩

/-- Any user may download a file of any profile by its number, and look up the profiles of two
names. -/
theorem profile_administration_open :
    dispatch "GET" "/Marti/api/device/profile/tool/file/5" = some .file ∧
      allowed "GET" "/Marti/api/device/profile/tool/file/5" false = true ∧
    dispatch "GET" "/Marti/api/device/profile/tool" = some .one ∧
      allowed "GET" "/Marti/api/device/profile/tool" false = true ∧
    dispatch "GET" "/Marti/api/device/profile/enrollment" = some .one ∧
      allowed "GET" "/Marti/api/device/profile/enrollment" false = true := by
  decide +kernel

end MicroTak.Marti
