import RouteScribe.Json.Printer
import RouteScribe.OpenApi.Dump
import RouteScribe.Text.Split

/-!
# The page that shows a document

A self-contained viewer: `Page.template` with the title of the document and its JSON text in the
places of two marks.  The title is escaped for markup, and the JSON text holds no `</`, which would
end the script that it stands in.
-/

namespace RouteScribe

namespace Page

/-- The lines of the page before the document is put in. -/
def templateLines : List String :=
  ["<!DOCTYPE html>",
   "<html lang=\"en\">",
   "<head>",
   "  <meta charset=\"UTF-8\">",
   "  <meta content=\"width=device-width, initial-scale=1.0\" name=\"viewport\">",
   "  <title>\x7b\x7bTITLE\x7d\x7d - API Documentation</title>",
   "  <link href=\"https://unpkg.com/swagger-ui-dist@5.11.0/swagger-ui.css\" rel=\"stylesheet\" type=\"text/css\" />",
   "  <style>",
   "    html \x7b",
   "      box-sizing: border-box;",
   "      overflow-y: scroll;",
   "    \x7d",
   "",
   "    *, *:before, *:after \x7b",
   "      box-sizing: inherit;",
   "    \x7d",
   "",
   "    body \x7b",
   "      margin: 0;",
   "      background: #fafafa;",
   "      font-family: -apple-system, BlinkMacSystemFont, \"Segoe UI\", Roboto, sans-serif;",
   "    \x7d",
   "",
   "    .swagger-ui .wrapper \x7b",
   "      width: 100%;",
   "      max-width: 1460px;",
   "      margin: 0 auto;",
   "      padding: 0 20px;",
   "    \x7d",
   "",
   "    .swagger-ui .opblock.opblock-get .opblock-summary-method \x7b",
   "      background: #3F778E;",
   "    \x7d",
   "",
   "    .swagger-ui .opblock.opblock-post .opblock-summary-method \x7b",
   "      background: #64908A;",
   "    \x7d",
   "",
   "    .swagger-ui .opblock.opblock-put .opblock-summary-method \x7b",
   "      background: #633B63;",
   "    \x7d",
   "",
   "    .swagger-ui .opblock.opblock-delete .opblock-summary-method \x7b",
   "      background: #C1786A;",
   "    \x7d",
   "",
   "    .swagger-ui .topbar \x7b",
   "      padding: 8px 30px;",
   "      background-color: #6F7E88;",
   "    \x7d",
   "  </style>",
   "</head>",
   "<body>",
   "  <div id=\"swagger-ui\"></div>",
   "  <script src=\"https://unpkg.com/swagger-ui-dist@5.11.0/swagger-ui-bundle.js\"></script>",
   "  <script src=\"https://unpkg.com/swagger-ui-dist@5.11.0/swagger-ui-standalone-preset.js\"></script>",
   "  <script>",
   "    window.onload = function() \x7b",
   "      const spec = \x7b\x7bSPEC_JSON\x7d\x7d;",
   "",
   "      SwaggerUIBundle(\x7b",
   "        spec: spec,",
   "        dom_id: '#swagger-ui',",
   "        deepLinking: true,",
   "        presets: [",
   "          SwaggerUIBundle.presets.apis,",
   "          SwaggerUIStandalonePreset",
   "        ],",
   "        plugins: [",
   "          SwaggerUIBundle.plugins.DownloadUrl",
   "        ],",
   "        layout: 'BaseLayout',",
   "        supportedSubmitMethods: ['get', 'post', 'put', 'delete', 'patch']",
   "      \x7d)",
   "    \x7d",
   "  </script>",
   "</body>",
   "</html>",
   ""]

/-- The page before the document is put in. -/
def template : Text := joined "\n" (templateLines.map Text.ofString)

/-- The mark for the title. -/
def titleMark : Text := "\x7b\x7bTITLE\x7d\x7d"

/-- The mark for the JSON text. -/
def specMark : Text := "\x7b\x7bSPEC_JSON\x7d\x7d"

/-- A code point of a text inside markup. -/
def markup (c : CodePoint) : Text :=
  if c = '&' then "&amp;"
  else if c = '<' then "&lt;"
  else if c = '>' then "&gt;"
  else if c = '"' then "&quot;"
  else if c = '\'' then "&#x27;"
  else [c]

/-- A text inside markup. -/
def escapeMarkup (s : Text) : Text := s.flatMap markup

/-- The JSON text of a value inside a script. -/
def spec (v : Json) : Text := replaceAll "</" "<\\/" (Json.indented .minimal v)

/-- The page with a title and a JSON text in the places of the marks. -/
def fill (title spec : Text) : Text :=
  replaceAll specMark spec (replaceAll titleMark title template)

/-- The page of a document. -/
def ofDocument (dumper : Dumper) (d : Document) : Except DumpError Text := do
  let v ← d.source dumper
  .ok (fill (escapeMarkup (d.info.title.getD [])) (spec v))

end Page

end RouteScribe
