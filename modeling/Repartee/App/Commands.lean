import Repartee.App.Input

/-!
# Commands that talk

`commands/parser.rs`, the messaging handlers of `commands/handlers_irc.rs`, and the dispatch of
submitted lines with its aliases (`app/input.rs`, `app/mod.rs`). The handlers of the other
commands are a parameter.

## Main definitions

- `parseCommand`, `expandAliasTemplate`
- `Talk`, `Talk.run`: what sends a message body
- `executeCommand`, `handleSubmit`: a submitted line, with the talking that it does
-/

set_option autoImplicit false

namespace Repartee

/-! ### The parser -/

structure ParsedCommand where
  name : Str
  args : List Str
  deriving DecidableEq

/-- Commands whose last argument consumes the rest of the line. -/
def greedyCommands : List Str :=
  ["msg", "query", "notice", "me", "quit", "topic", "kb", "close", "disconnect", "set", "alias",
    "quote", "shell", "sh"].map str

/-- The greedy commands with a single argument. -/
def singleArgCommands : List Str := ["me", "quit", "close", "quote"].map str

variable (w : World)

def parseCommand : Str → Option ParsedCommand
  | '/' :: trimmed =>
    match Text.splitOnce ' ' trimmed with
    | none => some ⟨w.toLowercase trimmed, []⟩
    | some (name, rest) =>
      let command := w.toLowercase name
      let rest := Text.trim rest
      if greedyCommands.contains command then
        if singleArgCommands.contains command then some ⟨command, [rest]⟩
        else
          match Text.splitOnce ' ' rest with
          | some (first, tail) => some ⟨command, [first, tail]⟩
          | none => some ⟨command, [rest]⟩
      else some ⟨command, Text.splitWhitespace rest⟩
  | _ => none

/-! ### Aliases -/

/-- The digits `9` to `0`. -/
def aliasDigits : List Nat := [9, 8, 7, 6, 5, 4, 3, 2, 1, 0]

/-- `join(" ")` -/
def joinSpace (words : List Str) : Str := List.intercalate [' '] words

def expandAliasTemplate (template : Str) (args : List Str) (channel nick server : Str) : Str :=
  let body := if template.contains '$' then template else template ++ str " $*"
  let body := [("${C}", channel), ("$C", channel), ("${N}", nick), ("$N", nick),
    ("${S}", server), ("$S", server), ("${T}", channel), ("$T", channel)].foldl
      (fun body r => Text.replace (str r.1) r.2 body) body
  let body := aliasDigits.foldl
    (fun body i => Text.replace ('$' :: (fmtNat i ++ ['-'])) (joinSpace (args.drop i)) body) body
  let body := Text.replace (str "$*") (joinSpace args) body
  let body := Text.replace (str "$-") (joinSpace args) body
  let body := aliasDigits.foldl
    (fun body i => Text.replace ('$' :: fmtNat i) (args.getD i []) body) body
  Text.trim body

/-! ### Messaging handlers -/

/-- The buffer that a command opens for a target. -/
def queryBuffer (connId target : Str) : Buffer where
  id := makeBufferId w connId target
  connectionId := connId
  bufferType := .query
  name := target
  messages := []
  users := Table.empty
  peerHandle := none

/-- `ensure_query_buffer` -/
def AppState.ensureQueryBuffer (st : AppState) (connId target : Str) (skipChannels : Bool) :
    AppState :=
  if (st.buffers.get? (makeBufferId w connId target)).isNone &&
      (!skipChannels || !isChannel target) then
    { st with buffers := st.buffers.replace (queryBuffer w connId target) }
  else st

/-- `set_active_buffer` -/
def AppState.setActiveBuffer (st : AppState) (id : Str) : AppState :=
  if (st.buffers.get? id).isSome then { st with activeBufferId := some id } else st

namespace App

/-- The loop of `cmd_msg`: each chunk is sent and shown, until one is refused. -/
def msgChunks (connId target bufferId nick : Str) (echoMessageEnabled : Bool) :
    List Str → App → App
  | [], app => app
  | chunk :: rest, app =>
    let sent := if app.ircHandles.contains connId then app.send w ⟨connId, .privmsg, target, chunk⟩
      else (true, app)
    if sent.1 then
      let app := sent.2
      msgChunks connId target bufferId nick echoMessageEnabled rest
        (if echoMessageEnabled then app
          else { app with state := app.state.addMessage bufferId ⟨.message, some nick, chunk⟩ })
    else sent.2

def cmdMsg (app : App) (args : List Str) : App :=
  match args with
  | target :: text :: _ =>
    match Text.stripPrefix ['='] target with
    | some dccNick =>
      let connId := ((app.findConnected w dccNick).map DccRecord.connId).getD []
      sayDcc w app dccNick (makeBufferId w connId ('=' :: dccNick)) .message text text
    | none =>
      match app.activeConnId with
      | none => app
      | some connId =>
        let nick := app.state.nickOf connId
        let app := { app with state := app.state.ensureQueryBuffer w connId target true }
        msgChunks w connId target (makeBufferId w connId target) nick
          (app.state.hasCap connId (str "echo-message")) (splitIrcMessage text messageMaxBytes) app
  | _ => app

/-- Send one line, if the connection has a handle, and show it unless it was refused. -/
def sendAndShow (app : App) (connId target bufferId : Str) (messageType : MessageType)
    (wire text : Str) : App :=
  let sent := if app.ircHandles.contains connId then app.send w ⟨connId, .privmsg, target, wire⟩
    else (true, app)
  if sent.1 && !app.state.hasCap connId (str "echo-message") then
    { sent.2 with state :=
      sent.2.state.addMessage bufferId ⟨messageType, some (app.state.nickOf connId), text⟩ }
  else sent.2

def cmdQuery (app : App) (args : List Str) : App :=
  match args with
  | [] => app
  | target :: rest =>
    match app.activeConnId with
    | none => app
    | some connId =>
      let bufferId := makeBufferId w connId target
      let state := (app.state.ensureQueryBuffer w connId target false).setActiveBuffer bufferId
      let app := { app with state }
      match rest with
      | [] => app
      | text :: _ => sendAndShow w app connId target bufferId .message text text

/-- The CTCP body of an action. -/
def ctcpAction (actionText : Str) : Str :=
  Char.ofNat 1 :: (str "ACTION " ++ actionText ++ [Char.ofNat 1])

def cmdMe (app : App) (args : List Str) : App :=
  match args with
  | [] => app
  | actionText :: _ =>
    match app.state.activeBuffer with
    | none => app
    | some buf =>
      if buf.bufferType = .dccChat then
        sayDcc w app ((Text.stripPrefix ['='] buf.name).getD buf.name) buf.id .action
          (ctcpAction actionText) actionText
      else if app.ircHandles.contains buf.connectionId then
        sendAndShow w app buf.connectionId buf.name buf.id .action (ctcpAction actionText)
          actionText
      else app

end App

/-! ### Dispatch -/

/-- The names and built-in aliases of the commands other than the messaging ones. -/
def otherCommands : List Str :=
  ["connect", "c", "disconnect", "quit", "exit", "detach", "dt", "server", "wizard", "dcc", "e2e",
    "join", "j", "part", "leave", "cycle", "rejoin", "topic", "t", "kick", "k", "invite", "mode",
    "op", "deop", "voice", "v", "devoice", "ban", "b", "unban", "kb", "kickban", "except",
    "unexcept", "invex", "uninvex", "reop", "unreop", "names", "notice", "nick", "away", "help",
    "?", "emote", "emotes", "emoji", "whois", "wi", "wii", "version", "ver", "list", "who",
    "whowas", "info", "admin", "lusers", "time", "links", "set", "reload", "spellcheck", "spell",
    "mentions", "ignore", "flood", "antiflood", "unignore", "alias", "unalias", "autoconnect",
    "items", "log", "script", "oper", "kill", "wallops", "stats", "clear", "close", "wc", "quote",
    "raw", "preview", "image", "img", "shell", "sh", "shrink"].map str

/-- Something that sends a message body: plain input, a messaging command, or a message that
comes back from the link shortener. -/
inductive Talk where
  | plain (text : Str)
  | substituted (out : PendingOutgoing) (text : Str)
  | msg (args : List Str)
  | query (args : List Str)
  | me (args : List Str)
  deriving DecidableEq

variable (cr : Crates)

def Talk.run (app : App) : Talk → App
  | .plain text => app.handlePlainMessage cr w text
  | .substituted out text => app.sendOutgoingSubstituted cr w out text
  | .msg args => app.cmdMsg w args
  | .query args => app.cmdQuery w args
  | .me args => app.cmdMe w args

/-- The messaging command of a name. -/
def messagingCommand (parsed : ParsedCommand) : Option Talk :=
  if parsed.name = str "msg" || parsed.name = str "m" then some (.msg parsed.args)
  else if parsed.name = str "query" || parsed.name = str "q" then some (.query parsed.args)
  else if parsed.name = str "me" || parsed.name = str "action" then some (.me parsed.args)
  else none

/-- The handlers of the other commands. -/
abbrev OtherHandlers := ParsedCommand → App → App

/-- The client after a line, and the talking done for it, each with the client it started in. -/
abbrev Outcome := App × List (App × Talk)

/-- Do one piece of talking. -/
def talk (app : App) (t : Talk) : Outcome := (t.run w cr app, [(app, t)])

/-- Run the parts of an expanded alias one after the other. -/
def runParts (execute : ParsedCommand → App → Outcome) : List Str → App → Outcome
  | [], app => (app, [])
  | part :: parts, app =>
    let first :=
      match parseCommand w part with
      | some reparsed => execute reparsed app
      | none => talk w cr app (.plain part)
    let rest := runParts execute parts first.1
    (rest.1, first.2 ++ rest.2)

/-- The expansion of an alias in the active conversation, cut at the semicolons. -/
def aliasParts (app : App) (template : Str) (args : List Str) : List Str :=
  let buf := app.state.activeBuffer
  let conn := buf.bind (fun b => app.state.connections.get? b.connectionId)
  let expanded := expandAliasTemplate template args ((buf.map Buffer.name).getD [])
    ((conn.map Connection.nick).getD []) ((conn.map Connection.label).getD [])
  ((expanded.splitOnP (fun c => c = ';')).map Text.trim).filter (fun s => !s.isEmpty)

def maxAliasDepth : Nat := 10

/-- `execute_command_with_depth`; `depth` more expansions are within `MAX_ALIAS_DEPTH`. -/
def executeCommand (others : OtherHandlers) : (depth : Nat) → ParsedCommand → App → Outcome
  | 0, _, app => (app, [])
  | depth + 1, parsed, app =>
    if app.logBrowserMode then (app, [])
    else if w.suppresses app.clock then (app.tick, [])
    else
      let app := app.tick
      match messagingCommand parsed with
      | some t => talk w cr app t
      | none =>
        if otherCommands.contains parsed.name then (others parsed app, [])
        else
          match app.aliases.lookup parsed.name with
          | some template =>
            runParts w cr (executeCommand others depth) (aliasParts app template parsed.args) app
          | none => (app, [])

/-- A line submitted by the user. -/
def handleSubmit (others : OtherHandlers) (app : App) (text : Str) : Outcome :=
  match parseCommand w text with
  | some parsed => executeCommand w cr others (maxAliasDepth + 1) parsed app
  | none => if app.logBrowserMode then (app, []) else talk w cr app (.plain text)

/-- What makes a client talk. -/
inductive Submission where
  | line (text : Str)
  | shortened (out : PendingOutgoing) (text : Str)

def Submission.outcome (others : OtherHandlers) (app : App) : Submission → Outcome
  | .line text => handleSubmit w cr others app text
  | .shortened out text => talk w cr app (.substituted out text)

end Repartee
