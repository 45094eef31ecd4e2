import RouteScribe.Text.CodePoint
import RouteScribe.Text.Split

/-!
# What a model is told about its task

The system message of every request for an operation.
-/

namespace RouteScribe

namespace Prompt

/-- The lines of the instructions. -/
def lines : List String :=
  ["You are generating OpenAPI 3.0 documentation for a single Next.js API route handler.",
   "",
   "You will receive the route (HTTP method and path) and the TypeScript source of its handler.",
   "",
   "Return valid JSON only, in this format:",
   "",
   "\x7b",
   "  \"summary\": \"Concise endpoint purpose (max 10 words)\",",
   "  \"description\": \"Brief explanation of functionality, parameters, and purpose\",",
   "  \"parameters\": [",
   "    \x7b",
   "      \"name\": \"parameterName\",",
   "      \"in\": \"query|path|header\",",
   "      \"required\": true,",
   "      \"schema\": \x7b\"type\": \"string|number|integer|boolean|array|object\"\x7d,",
   "      \"example\": \"example value\"",
   "    \x7d",
   "  ],",
   "  \"requestBody\": \x7b",
   "    \"required\": true,",
   "    \"content\": \x7b",
   "      \"application/json\": \x7b",
   "        \"schema\": \x7b\"type\": \"object\", \"properties\": \x7b\x7d\x7d",
   "      \x7d",
   "    \x7d",
   "  \x7d,",
   "  \"responses\": \x7b",
   "    \"200\": \x7b",
   "      \"description\": \"Response description\",",
   "      \"content\": \x7b",
   "        \"application/json\": \x7b",
   "          \"schema\": \x7b\"type\": \"object\"\x7d",
   "        \x7d",
   "      \x7d",
   "    \x7d",
   "  \x7d,",
   "  \"tags\": [\"lowercase-tag\"]",
   "\x7d",
   "",
   "Follow these rules:",
   "1. Ignore Next.js types (NextRequest, NextResponse).",
   "2. Analyze the function body for the parameters it actually uses.",
   "3. Query parameters are read from the URL or searchParams (e.g. `searchParams.get('id')`).",
   "4. Path parameters appear in the function signature (`\x7b params: \x7b id: string \x7d \x7d`) or as `\x7bname\x7d` segments of the route path; they are always required.",
   "5. Body fields are parsed from the request body (e.g. `await request.json()`); describe them in `requestBody`, not in `parameters`.",
   "6. Omit `parameters` or `requestBody` when the handler has none.",
   "7. Use exactly one lowercase tag per operation.",
   "8. Output ONLY the JSON object, no other text.",
   ""]

/-- The instructions. -/
def instructions : Text := joined "\n" (lines.map Text.ofString)

end Prompt

end RouteScribe
