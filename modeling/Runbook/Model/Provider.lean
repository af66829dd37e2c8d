import Runbook.Model.Offline
import Runbook.Settings.Layers

namespace Runbook

/-!
# Choosing a provider

A model is served by one of several vendors, which differ in their address, their
usual model and the key that a client needs.  The vendor that is set comes first; if
there is no key for it, the first vendor with a key serves; if there is no key at all,
the model without a network does.
-/

/-- Who serves a model. -/
inductive Provider where
  /-- A vendor at an address, or at the usual one of the protocol. -/
  | vendor (baseUrl : Option String) (model : String) (key : String)
  | offline
  deriving DecidableEq, Repr

/-- What vendors differ in. -/
structure Vendor where
  baseUrl : Option String
  model : String
  /-- The name of the key in the environment. -/
  keyName : String
  deriving DecidableEq, Repr

namespace Vendor

/-- The vendor of the Qwen models. -/
def dashscope : Vendor :=
  ⟨some "https://dashscope.aliyuncs.com/compatible-mode/v1", "qwen-plus", "DASHSCOPE_API_KEY"⟩

/-- The vendor of the DeepSeek models. -/
def deepseek : Vendor := ⟨some "https://api.deepseek.com", "deepseek-chat", "DEEPSEEK_API_KEY"⟩

/-- The vendor whose protocol the others speak. -/
def openai : Vendor := ⟨none, "gpt-4o-mini", "OPENAI_API_KEY"⟩

/-- Every vendor, in the order in which they are tried. -/
def all : List Vendor := [dashscope, deepseek, openai]

end Vendor

namespace Provider

/-- A key of the environment; a blank one counts as missing. -/
def key? (environment : Environment) (name : String) : Option String :=
  ((environment.find? (·.1 == name)).map (·.2)).filter fun key => !Text.allBlank key

/-- The vendor that a setting names, and the names of the keys that do for it. -/
def named? (provider : String) : Option (Vendor × List String) :=
  if provider = "dashscope" ∨ provider = "qwen" then some (.dashscope, [Vendor.dashscope.keyName])
  else if provider = "deepseek" then
    some (.deepseek, [Vendor.deepseek.keyName, Vendor.openai.keyName])
  else if provider = "openai" then some (.openai, [Vendor.openai.keyName])
  else none

/-- A vendor with a key; the settings may name another address and model. -/
def ofVendor (settings : ModelSettings) (vendor : Vendor) (key : String) : Provider :=
  .vendor (settings.baseUrl.or vendor.baseUrl) (settings.model.getD vendor.model) key

/-- Choose a provider. -/
def select (settings : ModelSettings) (environment : Environment) : Provider :=
  let provider := Text.lowercase settings.provider
  if provider = OfflineModel.name then offline
  else
    let wanted :=
      (named? provider).bind fun choice =>
        (choice.2.findSome? (key? environment)).map (ofVendor settings choice.1)
    let other :=
      Vendor.all.findSome? fun vendor =>
        (key? environment vendor.keyName).map (ofVendor settings vendor)
    (wanted.or other).getD offline

/-- The name of the model that is served. -/
def modelName : Provider → String
  | vendor _ model _ => model
  | offline => OfflineModel.name

end Provider

end Runbook
