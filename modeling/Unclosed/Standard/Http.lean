import Unclosed.Standard.Package

/-!
The package `net/http`: requests, responses, clients and servers.
-/

namespace Unclosed

def StandardPackage.http : StandardPackage := ⟨"net/http", "http.go", ofLines
  ["package http",
   "",
   "import (",
   "\t\"context\"",
   "\t\"io\"",
   "\t\"time\"",
   ")",
   "",
   "const (",
   "\tMethodGet    = \"GET\"",
   "\tMethodPost   = \"POST\"",
   "\tMethodPut    = \"PUT\"",
   "\tMethodDelete = \"DELETE\"",
   ")",
   "",
   "const (",
   "\tStatusOK                  = 200",
   "\tStatusBadRequest          = 400",
   "\tStatusNotFound            = 404",
   "\tStatusInternalServerError = 500",
   ")",
   "",
   "type Header map[string][]string",
   "",
   "func (h Header) Get(key string) string",
   "",
   "func (h Header) Set(key, value string)",
   "",
   "func (h Header) Add(key, value string)",
   "",
   "type Request struct \x7b",
   "\tMethod        string",
   "\tHeader        Header",
   "\tBody          io.ReadCloser",
   "\tContentLength int64",
   "\tHost          string",
   "\tRemoteAddr    string",
   "\tctx           context.Context",
   "\x7d",
   "",
   "func NewRequest(method, url string, body io.Reader) (*Request, error)",
   "",
   "func NewRequestWithContext(ctx context.Context, method, url string, body io.Reader) (*Request, error)",
   "",
   "func (r *Request) Context() context.Context",
   "",
   "func (r *Request) WithContext(ctx context.Context) *Request",
   "",
   "func (r *Request) FormValue(key string) string",
   "",
   "type Response struct \x7b",
   "\tStatus        string",
   "\tStatusCode    int",
   "\tHeader        Header",
   "\tBody          io.ReadCloser",
   "\tContentLength int64",
   "\tRequest       *Request",
   "\x7d",
   "",
   "type RoundTripper interface \x7b",
   "\tRoundTrip(*Request) (*Response, error)",
   "\x7d",
   "",
   "type Client struct \x7b",
   "\tTransport RoundTripper",
   "\tTimeout   time.Duration",
   "\x7d",
   "",
   "var DefaultClient *Client",
   "",
   "func (c *Client) Do(req *Request) (*Response, error)",
   "",
   "func (c *Client) Get(url string) (resp *Response, err error)",
   "",
   "func (c *Client) Head(url string) (resp *Response, err error)",
   "",
   "func (c *Client) Post(url, contentType string, body io.Reader) (resp *Response, err error)",
   "",
   "func (c *Client) CloseIdleConnections()",
   "",
   "func Get(url string) (resp *Response, err error)",
   "",
   "func Head(url string) (resp *Response, err error)",
   "",
   "func Post(url, contentType string, body io.Reader) (resp *Response, err error)",
   "",
   "type ResponseWriter interface \x7b",
   "\tHeader() Header",
   "\tWrite([]byte) (int, error)",
   "\tWriteHeader(statusCode int)",
   "\x7d",
   "",
   "type Handler interface \x7b",
   "\tServeHTTP(ResponseWriter, *Request)",
   "\x7d",
   "",
   "type HandlerFunc func(ResponseWriter, *Request)",
   "",
   "func (f HandlerFunc) ServeHTTP(w ResponseWriter, r *Request)",
   "",
   "func Handle(pattern string, handler Handler)",
   "",
   "func HandleFunc(pattern string, handler func(ResponseWriter, *Request))",
   "",
   "func ListenAndServe(addr string, handler Handler) error",
   "",
   "func Error(w ResponseWriter, msg string, code int)",
   "",
   "type Server struct \x7b",
   "\tAddr    string",
   "\tHandler Handler",
   "\x7d",
   "",
   "func (srv *Server) ListenAndServe() error",
   "",
   "func (srv *Server) Shutdown(ctx context.Context) error",
   "",
   "func (srv *Server) Close() error"]⟩

end Unclosed
