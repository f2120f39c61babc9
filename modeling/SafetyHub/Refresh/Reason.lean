import SafetyHub.User

/-!
# Refresh reasons

Why sources are asked to report afresh, what they are asked to do for that reason, and what an
overview shows meanwhile.  `RefreshReason.parse` takes a reason's name or its number.
-/

namespace SafetyHub

/-- What sources are asked to do. -/
inductive RequestType where
  /-- Report what is known. -/
  | getData
  /-- Look again before reporting. -/
  | fetchFreshData
deriving DecidableEq, Repr, Inhabited

namespace RequestType

/-- Every type. -/
def all : List RequestType := [.getData, .fetchFreshData]

/-- The name of a type. -/
def name : RequestType → String
  | .getData => "get_data"
  | .fetchFreshData => "fetch_fresh_data"

/-- The name of a type in the log of requests. -/
def logName : RequestType → String
  | .getData => "GetData"
  | .fetchFreshData => "FetchFreshData"

instance : Encode RequestType := ⟨fun t => .string t.name⟩
instance : Decode RequestType := ⟨fun d => Json.constant? d (all.map fun t => (t.name, t))⟩

end RequestType

/-- What an overview shows of the refresh in flight. -/
inductive RefreshStatus where
  | none
  | dataFetchInProgress
  | fullRescanInProgress
deriving DecidableEq, Repr, Inhabited

namespace RefreshStatus

/-- Every status. -/
def all : List RefreshStatus := [.none, .dataFetchInProgress, .fullRescanInProgress]

/-- The name of a status. -/
def name : RefreshStatus → String
  | .none => "none"
  | .dataFetchInProgress => "data_fetch_in_progress"
  | .fullRescanInProgress => "full_rescan_in_progress"

instance : Encode RefreshStatus := ⟨fun s => .string s.name⟩
instance : Decode RefreshStatus := ⟨fun d => Json.constant? d (all.map fun s => (s.name, s))⟩

end RefreshStatus

/-- Why a refresh was requested. -/
inductive RefreshReason where
  | pageOpen
  | rescanButtonClick
  | reboot
  | localeChange
  | safetyCenterEnabled
  | other
  | periodic
deriving DecidableEq, Repr, Inhabited

namespace RefreshReason

/-- Every reason. -/
def all : List RefreshReason :=
  [.pageOpen, .rescanButtonClick, .reboot, .localeChange, .safetyCenterEnabled, .other,
    .periodic]

/-- The name of a reason. -/
def name : RefreshReason → String
  | .pageOpen => "page_open"
  | .rescanButtonClick => "rescan_button_click"
  | .reboot => "reboot"
  | .localeChange => "locale_change"
  | .safetyCenterEnabled => "safety_center_enabled"
  | .other => "other"
  | .periodic => "periodic"

/-- The number that stands for a reason. -/
def value : RefreshReason → UInt16
  | .pageOpen => 100
  | .rescanButtonClick => 200
  | .reboot => 300
  | .localeChange => 400
  | .safetyCenterEnabled => 500
  | .other => 600
  | .periodic => 700

/-- Only a rescan asks sources to look again. -/
def requestType : RefreshReason → RequestType
  | .rescanButtonClick => .fetchFreshData
  | _ => .getData

/-- What an overview shows while a refresh for the reason is in flight. -/
def inProgressStatus : RefreshReason → RefreshStatus
  | .rescanButtonClick => .fullRescanInProgress
  | _ => .dataFetchInProgress

/-- The reason that a text gives by name or by number, blanks around it. -/
def parse (text : String) : Except WordError RefreshReason :=
  let word := Text.trim text
  let number := Text.readNat? word
  match all.find? fun r => r.name == word || number == some r.value.toNat with
  | some reason => .ok reason
  | none => .error (.unknownReason word)

instance : Encode RefreshReason := ⟨fun r => .string r.name⟩
instance : Decode RefreshReason := ⟨fun d => Json.constant? d (all.map fun r => (r.name, r))⟩

end RefreshReason

end SafetyHub
