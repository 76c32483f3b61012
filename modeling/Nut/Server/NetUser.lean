import Nut.Server.Upsd

set_option autoImplicit false

namespace Nut

section Handlers

variable (w : Upsd) (client : Client) (arg : List CString)

-- netuser.c

def netLogin : Upsd :=
  match arg with
  | [upsname] =>
    if client.loginups ≠ none then sendErr w client.id "ALREADY-LOGGED-IN"
    else withUps w client.id upsname fun ups =>
      if userCheckaction w.users client.username client.password "LOGIN" then
        let w := w.updateUps ups.name fun ups => { ups with numlogins := ups.numlogins + 1 }
        let w := w.updateClient client.id fun client => { client with loginups := some ups.name }
        w.reply client.id ok
      else sendErr w client.id "ACCESS-DENIED"
  | _ => sendErr w client.id "INVALID-ARGUMENT"

def netLogout : Upsd :=
  match arg with
  | [] =>
    let w := w.reply client.id (.line (cstr "OK Goodbye\n"))
    -- The next scan takes it for a client that has been idle since 1970.
    w.updateClient client.id fun client => { client with lastHeard := 0 }
  | _ => sendErr w client.id "INVALID-ARGUMENT"

def doNetPrimary (granted : String) : Upsd :=
  match arg with
  | [upsname] =>
    withUps w client.id upsname fun _ =>
      if !userCheckaction w.users client.username client.password "PRIMARY" &&
          !userCheckaction w.users client.username client.password "MASTER" then
        sendErr w client.id "ACCESS-DENIED"
      else w.reply client.id (.line (cstr granted))
  | _ => sendErr w client.id "INVALID-ARGUMENT"

def netPrimary : Upsd :=
  doNetPrimary w client arg "OK PRIMARY-GRANTED\n"

def netMaster : Upsd :=
  doNetPrimary w client arg "OK MASTER-GRANTED\n"

def netUsername : Upsd :=
  match arg with
  | [username] =>
    if client.username ≠ none then sendErr w client.id "ALREADY-SET-USERNAME"
    else
      let w := w.updateClient client.id fun client => { client with username := some username }
      w.reply client.id ok
  | _ => sendErr w client.id "INVALID-ARGUMENT"

def netPassword : Upsd :=
  match arg with
  | [password] =>
    if client.password ≠ none then sendErr w client.id "ALREADY-SET-PASSWORD"
    else
      let w := w.updateClient client.id fun client => { client with password := some password }
      w.reply client.id ok
  | _ => sendErr w client.id "INVALID-ARGUMENT"

-- netmisc.c

def Build.about (build : Build) : CString :=
  let url := build.packageUrl.getD []
  let pkgurlHasNutOrg := strstr url (cstr "networkupstools.org")
  build.upsVersion ++ cstr " - " ++ url ++
    (if build.packageUrl ≠ none ∧ !pkgurlHasNutOrg then cstr " or " else []) ++
    (if pkgurlHasNutOrg then [] else cstr "https://www.networkupstools.org/")

def netLine (text : CString) : Upsd :=
  match arg with
  | [] => w.reply client.id (.line text)
  | _ => sendErr w client.id "INVALID-ARGUMENT"

def netVer : Upsd :=
  netLine w client arg (cstr "Network UPS Tools upsd " ++ w.build.about ++ cstr "\n")

def netNetver : Upsd :=
  netLine w client arg (w.build.nutNetversion ++ cstr "\n")

def netHelp : Upsd :=
  netLine w client arg (cstr
    "Commands: HELP VER PROTVER GET LIST SET INSTCMD LOGIN LOGOUT USERNAME PASSWORD STARTTLS\n")

def netFsd : Upsd :=
  match arg with
  | [upsname] =>
    withUps w client.id upsname fun ups =>
      if userCheckaction w.users client.username client.password "FSD" then
        let w := w.updateUps ups.name fun ups => { ups with fsd := true }
        w.reply client.id (.line (cstr "OK FSD-SET\n"))
      else sendErr w client.id "ACCESS-DENIED"
  | _ => sendErr w client.id "INVALID-ARGUMENT"

-- netssl.c, in a build without SSL
def netStarttls : Upsd :=
  sendErr w client.id "FEATURE-NOT-SUPPORTED"

end Handlers

end Nut
