import NplBrowser.Lib.Run
import NplBrowser.Lib.Section
import NplBrowser.Lib.Queue
import NplBrowser.Json
import NplBrowser.CefClientConfig
import NplBrowser.ConfigStore
import NplBrowser.ConfigUse
import NplBrowser.ConfigShared
import NplBrowser.RootWindowWin
import NplBrowser.Command
import NplBrowser.CommandRun
import NplBrowser.Dump
import NplBrowser.Plugin
import NplBrowser.Codec
import NplBrowser.Registry
import NplBrowser.RootWindowManager
import NplBrowser.ManagerInv
import NplBrowser.ManagerRun
import NplBrowser.Termination
import NplBrowser.UrlRequest
import NplBrowser.UrlRequestInv
import NplBrowser.UrlRequestRun
import NplBrowser.CefValue
import NplBrowser.ServerTest
import NplBrowser.ServerInv
import NplBrowser.ServerRun
import NplBrowser.OsrAccessibility
import NplBrowser.MainMessageLoop
import NplBrowser.OsrWindow
import NplBrowser.Lib.Walk
import NplBrowser.WindowManager
import NplBrowser.ActiveWindow
import NplBrowser.ExtensionWindows
import NplBrowser.ImageCache
import NplBrowser.ImageRequests
import NplBrowser.ImageCoherence
import NplBrowser.ExtensionControls
import NplBrowser.ExtensionIcons
import NplBrowser.ResponseFilter
import NplBrowser.ResponseRun
import NplBrowser.OsrD3D11
import NplBrowser.CFHtmlRoundTrip
import NplBrowser.DragData
import NplBrowser.PluginAtomic
import NplBrowser.ExternalPump
import NplBrowser.OsrRenderer
import NplBrowser.BytesWriteHandler
import NplBrowser.OsrAXTree
import NplBrowser.OsrAXTreeSafe
import NplBrowser.CefIAccessible
import NplBrowser.Lib.Objects
import NplBrowser.Lib.Cursor
import NplBrowser.DragEnumFormatEtc
import NplBrowser.PassThruResponseFilter
import NplBrowser.DialogTest
import NplBrowser.MessageHandlers
import NplBrowser.MessageRun
import NplBrowser.PreferencesTest
import NplBrowser.StringReplace
import NplBrowser.Html
import NplBrowser.DumpResponse
import NplBrowser.GeneratedDocuments
import NplBrowser.RequestUrlFilter
import NplBrowser.WindowTestRunner
import NplBrowser.OsrPopup
import NplBrowser.Lib.DepthFirst
import NplBrowser.Lib.Tiling
import NplBrowser.Lib.MachineInt
import NplBrowser.SchemeTest
import NplBrowser.FileUtil
import NplBrowser.OsrRenderHandler
import NplBrowser.DestroyNode
import NplBrowser.OsrImeHandler
import NplBrowser.OsrImeWindow
import NplBrowser.AccChild
import NplBrowser.BoundsSwitch
import NplBrowser.DraggableRegions
import NplBrowser.Lib.Visit
import NplBrowser.Lib.Request
import NplBrowser.CefBrowserInfoMap
import NplBrowser.CefMessageRouter
import NplBrowser.CefMessageRouterRendererSide
import NplBrowser.CefMessageRouterBrowserSide
import NplBrowser.CefMessageRouterRequests
import NplBrowser.CefMessageRouterClient
import NplBrowser.CefMessageRouterQueries
import NplBrowser.CefMessageRouterServer
import NplBrowser.CefMessageRouterOffer
import NplBrowser.CefMessageRouterRun
import NplBrowser.CefMessageRouterHandlers
import NplBrowser.Lib.Utf8
import NplBrowser.JsonLexer
import NplBrowser.JsonStrings
import NplBrowser.JsonNumbers
import NplBrowser.JsonTokens
import NplBrowser.JsonParser
import NplBrowser.JsonGrammar
import NplBrowser.JsonWellFormed
import NplBrowser.DumpFloat
import NplBrowser.JsonRoundTrip
