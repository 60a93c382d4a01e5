import Graphwright.Options

/-!
# The head of a client module

The declarations that every generated client begins with, and the names they bind. They differ only
in whether an operation carries its document as a text or parsed.
-/
namespace Graphwright.Client.Prelude

def names : List String :=
  ["DataT", "VariablesT", "DEFAULT_HEADERS", "GraphQLOperationOptions", "GraphQLSuccessResponse",
    "MissingDataGraphQLResponseError", "GraphQLClient", "GraphQLOperation",
    "make_graphql_operation"]

def documentType (mode : DocumentMode) : String :=
  if mode = .text then "str" else "DocumentNode"

def queryText (mode : DocumentMode) : String :=
  if mode = .text then "self.document" else "print_ast(self.document)"

def typesAndHeaders : List String :=
  ["DataT = TypeVar(\"DataT\")",
    "VariablesT = TypeVar(\"VariablesT\")",
    "",
    "# https://github.com/graphql/graphql-over-http/blob/main/spec/GraphQLOverHTTP.md#legacy-watershed",
    "DEFAULT_HEADERS = \x7b",
    "    \"Accept\": (",
    "        \"application/graphql-response+json; charset=utf-8, \"",
    "        \"application/json; charset=utf-8\"",
    "    ),",
    "    \"Content-Type\": \"application/json\",",
    "\x7d"]

def requestOptions : List String :=
  ["class GraphQLOperationOptions(TypedDict, total=False):",
    "    preferred_op_name: str"]

def successResponse : List String :=
  ["@dataclass(frozen=True)",
    "class GraphQLSuccessResponse(Generic[DataT]):",
    "    \"\"\"A GraphQL response that carries data.\"\"\"",
    "    status_code: int",
    "    headers: httpx.Headers",
    "    data: DataT",
    "    errors: list[Any] | None = None",
    "    extensions: dict[str, Any] | None = None"]

def missingDataError : List String :=
  ["class MissingDataGraphQLResponseError(Exception):",
    "    \"\"\"The server answered without a ``data`` entry.\"\"\"",
    "",
    "    def __init__(",
    "        self,",
    "        status_code: int,",
    "        headers: httpx.Headers,",
    "        errors: list[Any] | None = None,",
    "        extensions: dict[str, Any] | None = None,",
    "    ):",
    "        super().__init__(f\"GraphQL response has no data (HTTP \x7bstatus_code\x7d): \x7berrors\x7d\")",
    "        self.status_code = status_code",
    "        self.headers = headers",
    "        self.errors = errors",
    "        self.extensions = extensions"]

def clientClass : List String :=
  ["class GraphQLClient:",
    "    \"\"\"Posts GraphQL requests to one endpoint.",
    "",
    "    Args:",
    "        endpoint: URL of the GraphQL endpoint",
    "        http_client: Client to send requests with; one is created (and closed",
    "            by ``aclose``) when omitted",
    "        headers: Extra headers sent with every request",
    "        timeout: Request timeout in seconds for the created client",
    "    \"\"\"",
    "",
    "    def __init__(",
    "        self,",
    "        endpoint: str,",
    "        http_client: httpx.AsyncClient | None = None,",
    "        *,",
    "        headers: dict[str, str] | None = None,",
    "        timeout: float = 30.0,",
    "    ):",
    "        self.endpoint = endpoint",
    "        self._owns_client = http_client is None",
    "        self._http = http_client or httpx.AsyncClient(timeout=timeout)",
    "        self._headers = \x7b**DEFAULT_HEADERS, **(headers or \x7b\x7d)\x7d",
    "",
    "    async def __aenter__(self) -> \"GraphQLClient\":",
    "        return self",
    "",
    "    async def __aexit__(self, *exc_info) -> None:",
    "        await self.aclose()",
    "",
    "    async def aclose(self) -> None:",
    "        if self._owns_client:",
    "            await self._http.aclose()",
    "",
    "    async def execute(",
    "        self,",
    "        query: str,",
    "        operation_name: str,",
    "        variables: Any = None,",
    "    ) -> GraphQLSuccessResponse[dict[str, Any]]:",
    "        \"\"\"Send one operation and return its response.",
    "",
    "        Raises:",
    "            httpx.HTTPStatusError: The server answered with an error status.",
    "            MissingDataGraphQLResponseError: The response carries no data.",
    "        \"\"\"",
    "        response = await self._http.post(",
    "            self.endpoint,",
    "            json=\x7b",
    "                \"query\": query,",
    "                \"operationName\": operation_name,",
    "                \"variables\": to_jsonable_python(variables, by_alias=True),",
    "            \x7d,",
    "            headers=self._headers,",
    "        )",
    "        response.raise_for_status()",
    "        body = response.json()",
    "        if body.get(\"data\") is None:",
    "            raise MissingDataGraphQLResponseError(",
    "                response.status_code,",
    "                response.headers,",
    "                body.get(\"errors\"),",
    "                body.get(\"extensions\"),",
    "            )",
    "        return GraphQLSuccessResponse(",
    "            status_code=response.status_code,",
    "            headers=response.headers,",
    "            data=body[\"data\"],",
    "            errors=body.get(\"errors\"),",
    "            extensions=body.get(\"extensions\"),",
    "        )"]

def operationClass (mode : DocumentMode) : List String :=
  ["@dataclass(frozen=True)",
    "class GraphQLOperation(Generic[VariablesT, DataT]):",
    "    \"\"\"A named operation, callable with a client and its variables.\"\"\"",
    "    document: " ++ documentType mode,
    "    fallback_operation_name: str",
    "    result_type: type[DataT]",
    "",
    "    async def __call__(",
    "        self,",
    "        client: GraphQLClient,",
    "        variables: VariablesT,",
    "        opts: GraphQLOperationOptions | None = None,",
    "    ) -> GraphQLSuccessResponse[DataT]:",
    "        operation_name = (opts or \x7b\x7d).get(\"preferred_op_name\", self.fallback_operation_name)",
    "        query = " ++ queryText mode,
    "        response = await client.execute(query, operation_name, variables)",
    "        return GraphQLSuccessResponse(",
    "            status_code=response.status_code,",
    "            headers=response.headers,",
    "            data=self.result_type.model_validate(response.data),",
    "            errors=response.errors,",
    "            extensions=response.extensions,",
    "        )"]

def operationFactory (mode : DocumentMode) : List String :=
  ["def make_graphql_operation(",
    "    document: " ++ documentType mode ++ ",",
    "    fallback_operation_name: str,",
    "    result_type: type[DataT],",
    ") -> GraphQLOperation[Any, DataT]:",
    "    return GraphQLOperation(document, fallback_operation_name, result_type)"]

def sections (mode : DocumentMode) : List (List String) :=
  [typesAndHeaders, requestOptions, successResponse, missingDataError, clientClass,
    operationClass mode, operationFactory mode]

def text (mode : DocumentMode) : String :=
  "\n\n\n".intercalate ((sections mode).map fun lines => "\n".intercalate lines)

end Graphwright.Client.Prelude
