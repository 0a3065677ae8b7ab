import ShutterEase.ShutterModels
import ShutterEase.Validations

/- Registration, deletion and the single-device updates. `currentUser` and `userData` are
   read where the source reads them, before the first awaited call. -/
namespace DeviceController
open KeyedTree Resumption Firebase ShutterModels DartText

/-- The fields of the registration form and the flags it saves with them. -/
structure DeviceForm where
  deviceName : String
  macAddress : String
  panelOperationPercentage : String := ""
  batteryPercentage : String := ""
  deviceStatus : Bool := false
  fCrep : Bool := false
  fAuto : Bool := false
  aParz : Bool := false
  calenderStatus : Bool := false
  shutterType : String := ""
  priority : String := ""
  numberOfMotors : Int := 1

def DeviceForm.validate (form : DeviceForm) : Bool :=
  (Validations.validateEmptyText "Device Name" form.deviceName).isNone &&
    (Validations.validateMacAddress form.macAddress).isNone

/-- What `UserRepository.userData` holds under the keys that registration reads. -/
structure UserData where
  id : Option String
  name : Option String
  email : Option String
  deriving DecidableEq, Repr

def registered (form : DeviceForm) (userData : UserData) (now : DateTime) :
    ShutterDeviceModel :=
  { userId := userData.id
    userName := userData.name
    userEmail := userData.email
    deviceId := some (trim form.macAddress)
    deviceMac := some (trim form.macAddress)
    deviceName := some (trim form.deviceName)
    devicePanelOperationPercentage := some (trim form.panelOperationPercentage)
    wifiPercentage := some ""
    batteryPercentage := some (trim form.batteryPercentage)
    deviceStatus := some form.deviceStatus
    fCrep := some form.fCrep
    fAuto := some form.fAuto
    aParz := some form.aParz
    calenderStatus := some form.calenderStatus
    shutterIconStatus := some false
    timestamp := some now
    hasDeviceSchedule := some false
    shutterType := some form.shutterType
    priority := some form.priority
    numberOfMotors := some form.numberOfMotors
    autoPlay := some false
    autoPlayTime := some "" }

def devicePath (deviceId : String) : String := "ShutterDevices/" ++ deviceId

def saveShutterDevice (form : DeviceForm) (userData : UserData) (now : DateTime) : Act Unit :=
  Action.tryCatch (do
    perform (.openLoadingDialog "Saving Device Information...." "assets/files/signupAnimtion.json")
    if form.validate then do
      let newDeviceId := trim form.macAddress
      let device := registered form userData now
      let path ← ref (devicePath newDeviceId)
      set path (fromFields device.toJson)
      perform .stopLoading
      perform .listenForDeviceChanges
      perform (.showSuccessSnackkbar "Success"
        "Device added successfully! You can now manage your shutters.")
      perform (.navigate "HomeScreen")
      perform .clearForm
    else
      perform .stopLoading)
    fun _ => do
      perform .stopLoading
      perform (.showErrorSnackbar
        "Unable to save the device. Please check your connection and try again.")

/-- `shouldDelete` is what the confirmation dialog returned. -/
def deleteShutterDevice (deviceID : String) (shouldDelete : Option Bool) : Act Unit :=
  if shouldDelete = some true then
    Action.tryCatch (do
      let deviceRef ← ref (devicePath deviceID)
      remove deviceRef
      perform .listenForDeviceChanges
      perform (.showSuccessSnackkbar "Success" "Device deleted successfully!")
      perform (.navigate "HomeScreen"))
      fun _ => perform (.showErrorSnackbar
        "Unable to delete the device. Please check your connection and try again.")
  else pure ()

def updateDevice (deviceId : String)
    (newStatus newFcrp newFauto newaParz newcalenderStatus : Bool) : Act Unit :=
  Action.tryCatch (do
    let deviceRef ← ref (devicePath deviceId)
    update deviceRef
      [("deviceStatus", Json.bool newStatus),
        ("fCrep", Json.bool newFcrp),
        ("fAuto", Json.bool newFauto),
        ("aParz", Json.bool newaParz),
        ("calenderStatus", Json.bool newcalenderStatus)]
    perform .listenForDeviceChanges
    perform (.showSuccessToast "Device status updated successfully!"))
    fun _ => perform (.snackbar "Error" "Unable to update device. Please try again.")

/-- The read and the casts of what it finds are not guarded, so their failure leaves the
    operation. -/
def toggleDeviceStatus (deviceKey : String) : Act Unit := do
  let deviceRef ← ref (devicePath deviceKey)
  let deviceSnapshot ← get deviceRef
  if deviceSnapshot.isNull then
    perform (.showErrorSnackbar "No device found with the given key.")
  else do
    let deviceData ← Action.lift (asMap deviceSnapshot)
    let stored ← Action.lift (asBool? (deviceData.child "shutterIconStatus"))
    let currentIconStatus := stored.getD false
    Action.tryCatch (do
      update deviceRef [("shutterIconStatus", Json.bool (!currentIconStatus))]
      perform (.showSuccessToast "Shutter icon status has been updated."))
      fun _ => perform (.showErrorSnackbar
        "Failed to update shutter icon status. Please try again.")

def optionInt : Option Int → Json
  | some i => Json.int i
  | none => .null

def optionStr : Option String → Json
  | some s => Json.str s
  | none => .null

/-- A null argument deletes its field. -/
def updateDeviceNewData (deviceId : String) (sleepTime openingEffort1 openingEffort2
    openingEffort3 closingEffort1 closingEffort2 closingEffort3 : Option Int)
    (deviceNames : Option String) : Act Unit :=
  Action.tryCatch (do
    let deviceRef ← ref (devicePath deviceId)
    update deviceRef
      [("sleepTime", optionInt sleepTime),
        ("openingEffort1", optionInt openingEffort1),
        ("openingEffort2", optionInt openingEffort2),
        ("openingEffort3", optionInt openingEffort3),
        ("closingEffort1", optionInt closingEffort1),
        ("closingEffort2", optionInt closingEffort2),
        ("closingEffort3", optionInt closingEffort3),
        ("deviceName", optionStr deviceNames)]
    perform .listenForDeviceChanges
    perform (.showSuccessToast "Device updated successfully!"))
    fun _ => perform (.showErrorSnackbar "Unable to update the device. Please try again.")

def resetAlarm (deviceId : String) : Act Unit :=
  Action.tryCatch (do
    let deviceRef ← ref (devicePath deviceId)
    update deviceRef [("alarmResetButton", Json.int 1)]
    perform .listenForDeviceChanges
    perform (.showSuccessToast "Alarm has been reset successfully!"))
    fun _ => perform (.showErrorSnackbar "Failed to reset the alarm. Please try again.")

end DeviceController
