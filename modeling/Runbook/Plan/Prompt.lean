import Runbook.Conversation
import Runbook.Plan.Basic
import Runbook.Plan.Format
import Runbook.Text.Search

namespace Runbook.Prompt

/-!
# Prompts

What a model is told: its part, the tools there are, the format of its answer, and
then the objective with every result so far.
-/

/-- How many characters of a result a prompt shows. -/
def resultLength : Nat := 2000

/-- What a prompt shows of the outcome of a call. -/
def outcomeText (call : Call) : String :=
  match call.outcome with
  | some (.ok text) => Text.preview resultLength text
  | some (.error fault) => "ERROR: " ++ fault.message
  | none => "(not executed)"

/-- A call with its number, from one, and its outcome. -/
def resultText (number : Nat) (call : Call) : String :=
  "[" ++ toString number ++ "] " ++ call.id ++ " (" ++ call.name ++ ") input=" ++
    call.input.compact ++ "\n" ++ outcomeText call

/-- Calls from a number on. -/
def resultTexts (number : Nat) : List Call → List String
  | [] => []
  | call :: rest => resultText number call :: resultTexts (number + 1) rest

/-- Every call with its outcome, with a blank line between two. -/
def results (calls : List Call) : String :=
  "\n\n".intercalate (resultTexts 1 calls)

/-- The objective and the results so far. -/
def objective (text : String) (calls : List Call) : String :=
  "目标：" ++ text ++ "\n\n" ++
    if calls.isEmpty then "尚无工具结果。" else "工具结果：\n" ++ results calls

/-- What a planner is told; `tools` describes the tools. -/
def planner (tools : String) : String :=
  "你是运维诊断助手的规划器。根据用户目标与已有结果，选择只读工具制定执行计划。\n" ++
  "互不依赖的步骤会并行执行；只有确实需要前一步输出时才声明 depends_on。\n\n" ++
  "可用工具：\n" ++ tools ++ "\n\n" ++
  "只输出一个 JSON 对象，格式如下（JSON Schema）：\n" ++ Format.planText ++ "\n"

/-- What a reviewer is told; `tools` describes the tools. -/
def reviewer (tools : String) : String :=
  "你是运维诊断助手的重规划器。检查到目前为止的全部工具结果（含失败），判断下一步：\n" ++
  "- 信息足够：\x7b\"action\": \"complete\", \"answer\": \"最终结论\"\x7d\n" ++
  "- 还需要调用工具：\x7b\"action\": \"continue\", \"steps\": [...]\x7d\n" ++
  "- 无法完成：\x7b\"action\": \"abort\", \"reason\": \"原因\"\x7d\n" ++
  "answer 可以留空，由后续总结步骤生成。\n\n" ++
  "可用工具：\n" ++ tools ++ "\n\n" ++
  "只输出一个 JSON 对象（JSON Schema）：\n" ++ Format.decisionText ++ "\n"

/-- What a writer of the final answer is told. -/
def writer : String :=
  "你是运维诊断助手。根据工具结果给出结论：现象、可能原因、证据与建议操作；不要编造结果中没有的数据。"

/-- A conversation of one part and one objective. -/
def conversation (part : String) (text : String) (calls : List Call) : Conversation :=
  [⟨.system, part⟩, ⟨.user, objective text calls⟩]

end Runbook.Prompt
