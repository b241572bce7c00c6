import CoreWarden.Config.Commands
import CoreWarden.Error
import CoreWarden.Instance
import CoreWarden.Process
import CoreWarden.Text.Blank
import CoreWarden.Text.Utf8

/-!
The process manager behind two commands: one restarts the core, the other writes its state as JSON.
Commands are run by whatever is given as the runner; one that cannot be started has no completion.
-/
namespace CoreWarden

namespace Supervisor

abbrev Runner := List String → Option Completion

inductive Task where
  | restart
  | status
  deriving DecidableEq

def Task.name : Task → String
  | restart => "重启"
  | status => "状态查询"

inductive Fault where
  | notConfigured (task : Task)
  | notStarted (task : Task)
  | failed (task : Task) (ending : Ending) (errors : Bytes)
  | unreadable

/-- How much of the error output is shown. -/
def shownErrors : Nat := 200

def Fault.message : Fault → String
  | notConfigured task => "未配置" ++ task.name ++ "命令"
  | notStarted task => "启动" ++ task.name ++ "命令失败"
  | failed task ending errors =>
    task.name ++ "命令失败: status=" ++ ending.describe ++ ", stderr=" ++
      String.ofList ((Text.Utf8.decodeLossy errors).take shownErrors)
  | unreadable => "内核状态输出不是合法JSON"

def Fault.error (fault : Fault) : Error := .supervisor fault.message

def perform (run : Runner) (task : Task) (command : List String) : Except Fault Bytes :=
  if command.isEmpty then .error (.notConfigured task)
  else match run command with
    | none => .error (.notStarted task)
    | some c => if c.ending.isSuccess then .ok c.output else .error (.failed task c.ending c.errors)

def restart (run : Runner) (commands : Commands) : Except Fault Unit :=
  (perform run .restart commands.restart).map fun _ => ()

/-- The text of an output. A byte that belongs to no character stands for halves of characters: it
makes a string that has no meaning, and matters only where one is asked for. -/
def jsonText : (escaped : Bool) → List (Option Char) → List Char
  | _, [] => []
  | escaped, some c :: rest => c :: jsonText (c == '\\' && !escaped) rest
  | true, none :: rest => 'z' :: jsonText false rest
  | false, none :: rest => "\\udc00\\udc00".toList ++ jsonText false rest

def report? (output : Bytes) : Option StatusReport :=
  Json.ofText? (jsonText false (Text.Utf8.units output))

def status (run : Runner) (commands : Commands) : Except Fault StatusReport := do
  let output ← perform run .status commands.status
  match report? output with
  | some report => return report
  | none => throw .unreadable

end Supervisor

end CoreWarden
