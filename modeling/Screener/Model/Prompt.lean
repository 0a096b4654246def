import Screener.Field
import Screener.Operator
import Screener.Query

namespace Screener.Model.Prompt

def fieldLine (f : Field) : String :=
  "- " ++ f.name ++ ": " ++ f.description ++ " (" ++ f.kind.name ++ ")"

def operatorLine (o : Operator) : String := "- " ++ o.name ++ ": " ++ o.description

def purpose : List String := [
    "You are a query parser for a stock database.",
    "Parse the user's natural language query into a structured JSON format."]

def shape : List String := [
    "Output format:",
    "\x7b",
    "  \"filters\": [\x7b\"field\": <field>, \"operator\": <operator>, " ++
      "\"value\": <string | number | array>\x7d],",
    "  \"order_by\": \x7b\"field\": <field>, \"direction\": \"asc\" | \"desc\"\x7d,",
    "  \"limit\": <integer>",
    "\x7d",
    "All keys are optional."]

def limits : String :=
  "limit is between 1 and " ++ toString maxLimit ++ " (default " ++ toString defaultLimit ++ ")."

def cases : List String := [
    "Examples:",
    "- \"Show me stocks with price above $100\" -> " ++
      "\x7b\"filters\": [\x7b\"field\": \"price\", \"operator\": \"gt\", \"value\": 100\x7d]\x7d",
    "- \"Find tech stocks\" -> " ++
      "\x7b\"filters\": [\x7b\"field\": \"sector\", \"operator\": \"eq\", " ++
      "\"value\": \"Technology\"\x7d]\x7d",
    "- \"Get stocks where volume is above 1 million and price is between $50 and $200\" ->",
    "  \x7b\"filters\": [\x7b\"field\": \"volume\", \"operator\": \"gt\", \"value\": 1000000\x7d,",
    "               \x7b\"field\": \"price\", \"operator\": \"between\", " ++
      "\"value\": [50, 200]\x7d]\x7d",
    "- \"Top 5 companies by market cap\" -> " ++
      "\x7b\"order_by\": \x7b\"field\": \"market_cap\", \"direction\": \"desc\"\x7d, " ++
      "\"limit\": 5\x7d",
    "",
    "Return ONLY valid JSON, no additional text."]

def lines : List String :=
  purpose ++ ["", "Available fields:"] ++ Field.all.map fieldLine ++
    ["", "Available operators:"] ++ Operator.all.map operatorLine ++
    [""] ++ shape ++ [limits, ""] ++ cases

def text : String := "\n".intercalate lines

end Screener.Model.Prompt
