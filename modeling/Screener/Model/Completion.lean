import Screener.Http.Reply
import Screener.Model.Prompt
import Screener.Service
import Screener.Settings

namespace Screener.Model.Completion

structure Request where
  path : String
  key : String
  model : String
  temperature : Extended .single
  system : String
  user : String

namespace Request

def new (settings : Settings.Model) (key base question : String) : Request where
  path := base ++ "/chat/completions"
  key := key
  model := settings.name
  temperature := settings.temperature
  system := Prompt.text
  user := question

def authorization (r : Request) : String := "Bearer " ++ r.key

def messages (r : Request) : List (String × String) := [("system", r.system), ("user", r.user)]

def replyKind : Json := .ofEntries [("type", .string "json_object")]

/-- A number that is no finite one is written as null. -/
def temperatureText (r : Request) : List Char :=
  match r.temperature with
  | .finite x => x.render .jsonSingle
  | _ => "null".toList

def body (r : Request) : String :=
  String.ofList <| Json.brace [
    Json.writeEntry "messages" (Json.bracket (r.messages.map fun (role, text) => Json.brace [
      Json.writeEntry "role" (Json.writeString role),
      Json.writeEntry "content" (Json.writeString text)])),
    Json.writeEntry "model" (Json.writeString r.model),
    Json.writeEntry "response_format" replyKind.write,
    Json.writeEntry "temperature" r.temperatureText]

end Request

structure Fault where
  message : String
  kind : Option String
  param : Option String
  code : Option String

namespace Fault

def codec : Json.Codec Fault :=
  (Json.Codec.record "ApiError" <|
    .cons (.required "message" .text) <|
      .cons (.nullable "type" .text) <|
        .cons (.nullable "param" .text) <|
          .cons (.nullable "code" .text) .none).via
    (fun (m, k, p, c, _) => ⟨m, k, p, c⟩) (fun f => (f.message, f.kind, f.param, f.code, ()))

def wrappedCodec : Json.Codec Fault :=
  (Json.Codec.record "WrappedError" (.cons (.required "error" codec) .none)).via
    (·.1) (fun f => (f, ()))

def text (f : Fault) : String :=
  " ".intercalate ((f.kind.map (· ++ ":")).toList ++ [f.message] ++
    (f.param.map fun p => "(param: " ++ p ++ ")").toList ++
    (f.code.map fun c => "(code: " ++ c ++ ")").toList)

end Fault

def roles : List String := ["system", "user", "assistant", "tool", "function"]

def endings : List String := ["stop", "length", "tool_calls", "content_filter", "function_call"]

def messageCodec : Json.Codec (Option String) :=
  (Json.Codec.record "ChatCompletionResponseMessage" <|
    .cons (.nullable "content" .text) <|
      .cons (.nullable "refusal" .text) <|
        .cons (.nullable "tool_calls" .any) <|
          .cons (.required "role" (.choice roles id)) <|
            .cons (.nullable "function_call" .any) <|
              .cons (.nullable "audio" .any) .none).via
    (·.1) (fun content => (content, none, none, "assistant", none, none, ()))

def choiceCodec : Json.Codec (Option String) :=
  (Json.Codec.record "ChatChoice" <|
    .cons (.required "index" .nat32) <|
      .cons (.required "message" messageCodec) <|
        .cons (.nullable "finish_reason" (.choice endings id)) <|
          .cons (.nullable "logprobs" .any) .none).via
    (·.2.1) (fun content => (0, content, none, none, ()))

def replyCodec : Json.Codec (List (Option String)) :=
  (Json.Codec.record "CreateChatCompletionResponse" <|
    .cons (.required "id" .text) <|
      .cons (.required "choices" choiceCodec.list) <|
        .cons (.required "created" .nat32) <|
          .cons (.required "model" .text) <|
            .cons (.nullable "service_tier" .any) <|
              .cons (.nullable "system_fingerprint" .text) <|
                .cons (.required "object" .text) <|
                  .cons (.nullable "usage" .any) .none).via
    (·.2.1) (fun contents => ("", contents, 0, "", none, none, "", none, ()))

inductive Failure where
  | fault (f : Fault)
  | unreadable (e : Json.Error)
  | noContent

def Failure.message : Failure → String
  | fault f => f.text
  | unreadable e => "failed to deserialize api response: " ++ e.message
  | noContent => "No response content from model"

/-- The content of the first answer. What a server says of its own error need not be a document. -/
def content (r : Http.Reply) : Except Failure String :=
  if r.isServerError then .error (.fault ⟨r.body, none, none, none⟩)
  else if r.isSuccess then
    match replyCodec.readText r.body with
    | .error e => .error (.unreadable e)
    | .ok (some text :: _) => .ok text
    | .ok _ => .error .noContent
  else
    match Fault.wrappedCodec.readText r.body with
    | .error e => .error (.unreadable e)
    | .ok f => .error (.fault f)

def answer (r : Http.Reply) : Service.Answer :=
  match content r with
  | .ok text => .reply text
  | .error e => .failure e.message

end Screener.Model.Completion
