import ShutterEase.AccountDevices

/- The eight bulk commands. They differ in what they write and in their messages. -/
namespace CommandsController
open KeyedTree Resumption Firebase AccountDevices

structure Command where
  loading : String
  fields : List (String × Json)
  success : String
  missing : String
  failure : String

def bulkCommand (command : Command) (currentUser : Option String) : Act Unit :=
  Action.tryCatch (do
    perform (.openLoadingDialog command.loading "assets/files/signupAnimtion.json")
    let shutterDevices ← get ["ShutterDevices"]
    match userDevices currentUser shutterDevices with
    | [] => do
      perform .stopLoading
      perform (.showErrorSnackbar command.missing)
    | device :: rest => do
      updateEach command.fields [] (device :: rest)
      perform .stopLoading
      perform (.showSuccessSnackkbar "Success!" command.success)
      perform (.navigate "HomeScreen"))
    fun e => do
      perform .stopLoading
      perform (.showErrorSnackbar (command.failure ++ e))

def openAll : Option String → Act Unit := bulkCommand
  { loading := "Opening all shutters..."
    fields := [("shutterIconStatus", Json.bool true)]
    success := "All shutters have been successfully opened."
    missing := "No shutters found for your account."
    failure := "Failed to open shutters: " }

def closeAll : Option String → Act Unit := bulkCommand
  { loading := "Closing all shutters..."
    fields := [("shutterIconStatus", Json.bool false)]
    success := "All shutters have been successfully closed."
    missing := "No shutters found for your account."
    failure := "Failed to close shutters: " }

def playAll : Option String → Act Unit := bulkCommand
  { loading := "Activating all devices..."
    fields := [("deviceStatus", Json.bool true)]
    success := "All devices have been activated."
    missing := "No devices found for your account."
    failure := "Failed to activate devices: " }

def stopAll : Option String → Act Unit := bulkCommand
  { loading := "Deactivating all devices..."
    fields := [("deviceStatus", Json.bool false)]
    success := "All devices have been deactivated."
    missing := "No devices found for your account."
    failure := "Failed to deactivate devices: " }

def openAllAndStop : Option String → Act Unit := bulkCommand
  { loading := "Opening all shutters and stopping devices..."
    fields := [("shutterIconStatus", Json.bool true), ("deviceStatus", Json.bool false)]
    success := "All shutters have been opened and devices deactivated."
    missing := "No shutters associated with your account were found."
    failure := "Failed to open shutters and stop devices: " }

def closeAllAndStop : Option String → Act Unit := bulkCommand
  { loading := "Closing all shutters and stopping devices..."
    fields := [("shutterIconStatus", Json.bool false), ("deviceStatus", Json.bool false)]
    success := "All shutters have been closed and devices deactivated."
    missing := "No shutters associated with your account were found."
    failure := "Failed to close shutters and stop devices: " }

def calenderON : Option String → Act Unit := bulkCommand
  { loading := "Enabling schedules for all devices..."
    fields := [("calenderStatus", Json.bool true)]
    success := "Schedules have been activated for all devices."
    missing := "No devices found for your account."
    failure := "Failed to activate schedules: " }

def calenderOFF : Option String → Act Unit := bulkCommand
  { loading := "Disabling schedules for all devices..."
    fields := [("calenderStatus", Json.bool false)]
    success := "Schedules have been deactivated for all devices."
    missing := "No devices found for your account."
    failure := "Failed to deactivate schedules: " }

/-- A command alone writes its fields to the devices of the user's query, and ends well. -/
theorem alone_bulkCommand (command : Command) (currentUser : Option String) (db : Json) :
    alone (bulkCommand command currentUser) db = (writeEach command.fields
      ((userDevices currentUser (db.child "ShutterDevices")).map Prod.fst) db, .ok ()) := by
  have read := alone_get ["ShutterDevices"] db
  have written := alone_updateEach command.fields []
    (userDevices currentUser (db.child "ShutterDevices")) db
  simp only [alone] at read written ⊢
  simp only [bulkCommand, perform, Action.exec_tryCatch, Action.exec_bind, Action.exec_tell, read,
    Node.get_cons, Node.get_nil]
  cases devices : userDevices currentUser (db.child "ShutterDevices") with
  | nil => rfl
  | cons device rest =>
    rw [devices] at written
    simp only [Action.exec_bind, written]
    rfl

end CommandsController
