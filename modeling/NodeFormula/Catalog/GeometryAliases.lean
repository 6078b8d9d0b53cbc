import NodeFormula.Catalog.Basic

/-!
# Aliases for geometry trees

Each alias names a node with some properties set and the sockets in use.  Aliases that differ in
the values of properties, and in the sockets that go with them, are a family.  The table is in
alphabetical order.
-/

namespace NodeFormula.Catalog

def geo (name : String) : String := "GeometryNode" ++ name

def compareModes : Choice :=
  plain "mode" [("average", ""), ("direction", ""), ("dot_product", ""),
    ("element_wise", "ELEMENT"), ("length", "")]

/-- How vectors are compared; some ways take an angle or a bound. -/
def vectorModes : Choice :=
  adding "mode" [("average", "", []), ("direction", "", [11]), ("dot_product", "", [10]),
    ("element_wise", "ELEMENT", []), ("length", "", [])]

def attributeTypes : Choice :=
  routing "data_type" [("boolean", "", [5], [4]), ("color", "FLOAT_COLOR", [4], [3]),
    ("float", "", [1], [0]), ("integer", "INT", [2], [1]), ("vector", "FLOAT_VECTOR", [3], [2])]

def domains : Choice :=
  plain "domain" [("edge", ""), ("face", ""), ("face_corner", "CORNER"), ("instance", ""),
    ("point", ""), ("spline", "CURVE")]

def parts : Choice :=
  plain "domain" [("edge", ""), ("face", ""), ("instance", ""), ("point", ""), ("spline", "CURVE")]

def fieldTypes : Choice :=
  routing "data_type" [("boolean", "", [4], [4]), ("color", "FLOAT_COLOR", [3], [3]),
    ("float", "", [0], [0]), ("integer", "INT", [1], [1]), ("vector", "FLOAT_VECTOR", [2], [2])]

def equalTypes : Choice :=
  adding "data_type" [("color", "RGBA", [6, 7, 12]), ("float", "", [0, 1, 12]),
    ("integer", "INT", [2, 3]), ("string", "", [8, 9])]

def orderTypes : Choice :=
  adding "data_type" [("color", "RGBA", [6, 7, 12]), ("float", "", [0, 1]),
    ("integer", "INT", [2, 3])]

def fillTypes : Choice :=
  adding "fill_type" [("n_gon", "NGON", [2]), ("none", "", []), ("triangles", "TRIANGLE_FAN", [2])]

def voxels : Choice :=
  adding "resolution_mode" [("amount", "VOXEL_AMOUNT", [3]), ("size", "VOXEL_SIZE", [2])]

def geometryAliasesAccumulateToFill : List (List (String × NodeRecipe)) :=
  [varied "accumulate_field" (geo "AccumulateField") (recipe · [1, 3] [1, 4, 7] []) [([3], [],
      [routing "data_type" [("float", "", [1], [1, 4, 7]), ("integer", "INT", [2], [2, 5, 8]),
      ("vector", "FLOAT_VECTOR", [0], [0, 3, 6])], domains])],
   wholly "align_euler_to_vector" "FunctionNodeAlignEulerToVector" 3 1 [named "axis" ["x", "y",
      "z"], named "pivot_axis" ["auto", "x", "y", "z"]],
   varied "arc" (geo "CurveArc") (recipe · [0, 4, 5, 6, 8, 9] [0] []) [([0, 8, 9], [0],
      [routing "mode" [("points", "", [1, 2, 3, 7], [1, 2, 3]), ("radius", "", [4, 5, 6], [])]])],
   varied "attribute_statistic" (geo "AttributeStatistic") (whole · 3 8) [([0, 1], [],
      [routing "data_type" [("float", "", [2], [0, 1, 2, 3, 4, 5, 6, 7]), ("vector", "FLOAT_VECTOR",
      [3], [8, 9, 10, 11, 12, 13, 14, 15])], domains])],
   wholly "bezier_segment" (geo "CurvePrimitiveBezierSegment") 5 1 [named "mode" ["offset",
      "position"]],
   varied "blur_attribute" (geo "BlurAttribute") (recipe · [0, 4, 5] [0] []) [([4, 5], [],
      [routing "data_type" [("color", "FLOAT_COLOR", [3], [3]), ("float", "", [0], [0]), ("integer",
      "INT", [1], [1]), ("vector", "FLOAT_VECTOR", [2], [2])]])],
   [("boolean", whole "FunctionNodeInputBool" 0 1)],
   varied "boolean_math" "FunctionNodeBooleanMath" (whole · 2 1) [([0], [0], [adding "operation"
      [("and", "", [1]), ("equal", "XNOR", [1]), ("imply", "", [1]), ("nor", "", [1]), ("not", "",
      []), ("not_and", "NAND", [1]), ("not_equal", "XOR", [1]), ("or", "", [1]), ("subtract",
      "NIMPLY", [1])]])],
   [("bounding_box", whole (geo "BoundBox") 1 3)],
   varied "capture_attribute" (geo "CaptureAttribute") (recipe · [0, 2] [0, 2] []) [([0], [0],
      [routing "data_type" [("boolean", "", [4], [4]), ("color", "FLOAT_COLOR", [3], [3]), ("float",
      "", [2], [2]), ("integer", "INT", [5], [5]), ("vector", "FLOAT_VECTOR", [1], [1])],
      domains])],
   wholly "collection_info" (geo "CollectionInfo") 3 1 [named "transform_space" ["original",
      "relative"]],
   [("color", whole "FunctionNodeInputColor" 0 1)],
   wholly "combine_color" "FunctionNodeCombineColor" 4 1 [colorModes],
   varied "compare" "FunctionNodeCompare" (whole · 2 1) [ ([], [0], [named "operation" ["equal"],
      equalTypes, compareModes]), ([4, 5, 12], [0], [named "operation" ["equal"], named "data_type"
      ["vector"], vectorModes]), ([], [0], [plain "operation" [("greater_than", ""),
      ("greater_than_or_equal", "GREATER_EQUAL")], orderTypes, compareModes]), ([8, 9], [0],
      [plain "operation" [("greater_than_or_equal", "GREATER_EQUAL")], named "data_type" ["string"],
      compareModes]), ([4, 5], [0], [plain "operation" [("greater_than_or_equal", "GREATER_EQUAL")],
      named "data_type" ["vector"], vectorModes]), ([8, 9], [0], [named "operation"
      ["greater_than"], named "data_type" ["string"], compareModes]), ([4, 5], [0],
      [named "operation" ["greater_than"], named "data_type" ["vector"], vectorModes]), ([], [0],
      [plain "operation" [("less_than", ""), ("less_than_or_equal", "LESS_EQUAL")], orderTypes,
      compareModes]), ([8, 9], [0], [plain "operation" [("less_than_or_equal", "LESS_EQUAL")],
      named "data_type" ["string"], compareModes]), ([4, 5], [0], [plain "operation"
      [("less_than_or_equal", "LESS_EQUAL")], named "data_type" ["vector"], vectorModes]), ([8, 9],
      [0], [named "operation" ["less_than"], named "data_type" ["string"], compareModes]), ([4, 5],
      [0], [named "operation" ["less_than"], named "data_type" ["vector"], vectorModes]), ([], [0],
      [named "operation" ["not_equal"], equalTypes, compareModes]), ([4, 5, 12], [0],
      [named "operation" ["not_equal"], named "data_type" ["vector"], vectorModes])],
   varied "cone" (geo "MeshCone") (whole · 6 5) [([0, 1, 3, 4, 5], [0, 1, 2, 3, 4], [fillTypes])],
   [("convex_hull", whole (geo "ConvexHull") 1 1),
    ("corners_of_face", whole (geo "CornersOfFace") 3 2),
    ("corners_of_vertex", whole (geo "CornersOfVertex") 3 2),
    ("cube", whole (geo "MeshCube") 4 2)],
   varied "curve_circle" (geo "CurvePrimitiveCircle") (recipe · [0, 4] [0] []) [([0], [0],
      [routing "mode" [("points", "", [1, 2, 3], [1]), ("radius", "", [4], [])]])],
   [("curve_handle_positions", whole (geo "InputCurveHandlePositions") 1 2),
    ("curve_length", whole (geo "CurveLength") 1 1)],
   varied "curve_line" (geo "CurvePrimitiveLine") (whole · 2 1) [([0], [0], [adding "mode"
      [("direction", "", [2, 3]), ("points", "", [1])]])],
   [("curve_of_point", whole (geo "CurveOfPoint") 1 2),
    ("curve_tangent", whole (geo "InputTangent") 0 1),
    ("curve_tilt", whole (geo "InputCurveTilt") 0 1),
    ("curve_to_mesh", whole (geo "CurveToMesh") 3 1)],
   varied "curve_to_points" (geo "CurveToPoints") (whole · 2 4) [([0], [0, 1, 2, 3], [adding "mode"
      [("count", "", [1]), ("evaluated", "", []), ("length", "", [2])]])],
   varied "cylinder" (geo "MeshCylinder") (whole · 5 5) [([0, 1, 3, 4], [0, 1, 2, 3, 4],
      [fillTypes])],
   [("deform_curves_on_surface", whole (geo "DeformCurvesOnSurface") 1 1)],
   wholly "delete_geometry" (geo "DeleteGeometry") 2 1 [plain "mode" [("all", ""),
      ("only_edges___faces", "EDGE_FACE"), ("only_faces", "ONLY_FACE")], parts],
   varied "distribute_points_in_volume" (geo "DistributePointsInVolume") (whole · 3 1) [([0], [0],
      [adding "mode" [("grid", "DENSITY_GRID", [3, 4]), ("random", "DENSITY_RANDOM", [1, 2])]])],
   varied "distribute_points_on_faces" (geo "DistributePointsOnFaces") (recipe · [0, 1, 4, 6] [0, 1,
      2] []) [([0, 1, 6], [0, 1, 2], [adding "distribute_method" [("poisson_disk", "POISSON", [2, 3,
      5]), ("random", "", [4])]])],
   varied "domain_size" (geo "AttributeDomainSize") (whole · 1 4) [([0], [], [routing "component"
      [("curve", "", [], [0, 4]), ("instances", "", [], [5]), ("mesh", "", [], [0, 1, 2, 3]),
      ("point_cloud", "POINTCLOUD", [], [0])]])],
   [("dual_mesh", whole (geo "DualMesh") 2 1)],
   wholly "duplicate_elements" (geo "DuplicateElements") 3 2 [named "domain" ["edge", "face",
      "instance", "point", "spline"]],
   [("edge_angle", whole (geo "InputMeshEdgeAngle") 0 2),
    ("edge_neighbors", whole (geo "InputMeshEdgeNeighbors") 0 1),
    ("edge_paths_to_curves", whole (geo "EdgePathsToCurves") 3 1),
    ("edge_paths_to_selection", whole (geo "EdgePathsToSelection") 2 1),
    ("edge_vertices", whole (geo "InputMeshEdgeVertices") 0 4),
    ("edges_of_corner", whole (geo "EdgesOfCorner") 1 2),
    ("edges_of_vertex", whole (geo "EdgesOfVertex") 3 2),
    ("endpoint_selection", whole (geo "CurveEndpointSelection") 2 1)],
   varied "extrude_mesh" (geo "ExtrudeMesh") (whole · 5 3) [([0, 1, 2, 3], [0, 1, 2], [adding "mode"
      [("edges", "", []), ("faces", "", [4]), ("vertices", "", [])]])],
   [("face_area", whole (geo "InputMeshFaceArea") 0 1),
    ("face_is_planar", whole (geo "InputMeshFaceIsPlanar") 1 1),
    ("face_neighbors", whole (geo "InputMeshFaceNeighbors") 0 2),
    ("face_of_corner", whole (geo "FaceOfCorner") 1 2),
    ("face_set_boundaries", whole (geo "MeshFaceSetBoundaries") 1 1)],
   varied "field_at_index" (geo "FieldAtIndex") (whole · 2 1) [ ([0], [], [named "domain" ["edge"],
      attributeTypes]), ([0], [], [plain "domain" [("face", ""), ("face_corner", "CORNER")],
      routing "data_type" [("boolean", "", [5], [4]), ("color", "FLOAT_COLOR", [4], [3])]]), ([0],
      [], [plain "domain" [("face_corner", "CORNER"), ("face", "")], routing "data_type" [("float",
      "", [1], [0]), ("integer", "INT", [2], [1]), ("vector", "FLOAT_VECTOR", [3], [2])]]), ([0],
      [], [plain "domain" [("instance", ""), ("point", ""), ("spline", "CURVE")], attributeTypes])],
   wholly "fill_curve" (geo "FillCurve") 1 1 [plain "mode" [("n_gons", "NGONS"), ("triangles",
      "")]]]

def geometryAliasesFilletToSet : List (List (String × NodeRecipe)) :=
  [varied "fillet_curve" (geo "FilletCurve") (recipe · [0, 2, 3] [0] []) [([0, 2, 3], [0],
      [adding "mode" [("bezier", "", []), ("poly", "", [1])]])],
   [("flip_faces", whole (geo "FlipFaces") 2 1)],
   wholly "float_to_integer" "FunctionNodeFloatToInt" 1 1 [named "rounding_mode" ["ceiling",
      "floor", "round", "truncate"]],
   wholly "geometry_proximity" (geo "Proximity") 2 2 [named "target_element" ["edges", "faces",
      "points"]],
   [("geometry_to_instance", whole (geo "GeometryToInstance") 1 1),
    ("grid", whole (geo "MeshGrid") 4 2),
    ("handle_type_selection", whole (geo "CurveHandleTypeSelection") 0 1),
    ("ico_sphere", whole (geo "MeshIcoSphere") 2 2),
    ("id", whole (geo "InputID") 0 1),
    ("image", whole (geo "InputImage") 0 1),
    ("image_info", whole (geo "ImageInfo") 2 5)],
   wholly "image_texture" (geo "ImageTexture") 3 2 [plain "interpolation" [("closest", "Closest"),
      ("cubic", "Cubic"), ("linear", "Linear")], extensions],
   [("index", whole (geo "InputIndex") 0 1),
    ("instance_on_points", whole (geo "InstanceOnPoints") 7 1),
    ("instance_rotation", whole (geo "InputInstanceRotation") 0 1),
    ("instance_scale", whole (geo "InputInstanceScale") 0 1),
    ("instances_to_points", whole (geo "InstancesToPoints") 4 1),
    ("integer", whole "FunctionNodeInputInt" 0 1)],
   varied "interpolate_domain" (geo "FieldOnDomain") (whole · 1 1) [ ([], [], [named "domain"
      ["edge"], fieldTypes]), ([], [], [plain "domain" [("face", ""), ("face_corner", "CORNER")],
      routing "data_type" [("boolean", "", [4], [4]), ("color", "FLOAT_COLOR", [3], [3])]]), ([],
      [], [plain "domain" [("face_corner", "CORNER"), ("face", "")], routing "data_type" [("float",
      "", [0], [0]), ("integer", "INT", [1], [1]), ("vector", "FLOAT_VECTOR", [2], [2])]]), ([], [],
      [plain "domain" [("instance", ""), ("point", ""), ("spline", "CURVE")], fieldTypes])],
   [("is_shade_smooth", whole (geo "InputShadeSmooth") 0 1),
    ("is_spline_cyclic", whole (geo "InputSplineCyclic") 0 1),
    ("is_viewport", whole (geo "IsViewport") 0 1),
    ("join_geometry", whole (geo "JoinGeometry") 1 1),
    ("join_strings", whole (geo "StringJoin") 2 1),
    ("material", whole (geo "InputMaterial") 0 1),
    ("material_index", whole (geo "InputMaterialIndex") 0 1),
    ("material_selection", whole (geo "MaterialSelection") 1 1)],
   wholly "merge_by_distance" (geo "MergeByDistance") 3 1 [named "mode" ["all", "connected"]],
   varied "mesh_boolean" (geo "MeshBoolean") (whole · 4 2) [([1, 2, 3], [0, 1], [adding "operation"
      [("difference", "", [0]), ("intersect", "", []), ("union", "", [])]])],
   wholly "mesh_circle" (geo "MeshCircle") 2 1 [plain "fill_type" [("n_gon", "NGON"), ("none", ""),
      ("triangles", "TRIANGLE_FAN")]],
   [("mesh_island", whole (geo "InputMeshIsland") 0 2)],
   varied "mesh_line" (geo "MeshLine") (recipe · [0, 2, 3] [0] []) [ ([2, 3], [0], [named "mode"
      ["end_points"], adding "count_mode" [("count", "TOTAL", [0]), ("resolution", "", [1])]]), ([0,
      2, 3], [0], [named "mode" ["offset"], plain "count_mode" [("count", "TOTAL"), ("resolution",
      "")]])],
   [("mesh_to_curve", whole (geo "MeshToCurve") 2 1)],
   wholly "mesh_to_points" (geo "MeshToPoints") 4 1 [named "mode" ["corners", "edges", "faces",
      "vertices"]],
   varied "mesh_to_volume" (geo "MeshToVolume") (recipe · [0, 1, 3, 4, 5, 6] [0] []) [([0, 1, 4, 5,
      6], [0], [voxels])],
   varied "named_attribute" (geo "InputNamedAttribute") (recipe · [0] [1, 5] []) [([0], [5],
      [routing "data_type" [("boolean", "", [], [3]), ("color", "FLOAT_COLOR", [], [2]), ("float",
      "", [], [1]), ("integer", "INT", [], [4]), ("vector", "FLOAT_VECTOR", [], [0])]])],
   [("normal", whole (geo "InputNormal") 0 1)],
   wholly "object_info" (geo "ObjectInfo") 2 4 [named "transform_space" ["original", "relative"]],
   [("offset_corner_in_face", whole (geo "OffsetCornerInFace") 2 1),
    ("offset_point_in_curve", whole (geo "OffsetPointInCurve") 2 2),
    ("pack_uv_islands", whole (geo "UVPackIslands") 4 1),
    ("points", whole (geo "Points") 3 1),
    ("points_of_curve", whole (geo "PointsOfCurve") 3 2),
    ("points_to_vertices", whole (geo "PointsToVertices") 2 1)],
   varied "points_to_volume" (geo "PointsToVolume") (recipe · [0, 1, 3, 4] [0] []) [([0, 1, 4], [0],
      [voxels])],
   [("position", whole (geo "InputPosition") 0 1),
    ("quadratic_bezier", whole (geo "CurveQuadraticBezier") 4 1)],
   varied "quadrilateral" (geo "CurvePrimitiveQuadrilateral") (whole · 2 1) [([], [0],
      [adding "mode" [("kite", "", [0, 5, 6]), ("parallelogram", "", [0, 1, 4]), ("points", "", [7,
      8, 9, 10]), ("rectangle", "", [0, 1]), ("trapezoid", "", [1, 2, 3, 4])]])],
   [("radius", whole (geo "InputRadius") 0 1)],
   varied "random_value" "FunctionNodeRandomValue" (recipe · [2, 3, 7, 8] [1] []) [([7, 8], [],
      [routing "data_type" [("boolean", "", [6], [3]), ("float", "", [2, 3], [1]), ("integer",
      "INT", [4, 5], [2]), ("vector", "FLOAT_VECTOR", [0, 1], [0])]])],
   varied "raycast" (geo "Raycast") (recipe · [0, 2, 6, 7, 8] [0, 1, 2, 3, 5] []) [([0, 6, 7, 8],
      [0, 1, 2, 3], [named "mapping" ["interpolated", "nearest"], routing "data_type" [("boolean",
      "", [4], [7]), ("color", "FLOAT_COLOR", [3], [6]), ("float", "", [2], [5]), ("integer", "INT",
      [5], [8]), ("vector", "FLOAT_VECTOR", [1], [4])]])],
   [("realize_instances", whole (geo "RealizeInstances") 1 1),
    ("remove_named_attribute", whole (geo "RemoveAttribute") 2 1),
    ("replace_material", whole (geo "ReplaceMaterial") 3 1),
    ("replace_string", whole "FunctionNodeReplaceString" 3 1)],
   varied "resample_curve" (geo "ResampleCurve") (whole · 3 1) [([0, 1], [0], [adding "mode"
      [("count", "", [2]), ("evaluated", "", []), ("length", "", [3])]])],
   [("reverse_curve", whole (geo "ReverseCurve") 2 1)],
   wholly "rotate_euler" "FunctionNodeRotateEuler" 2 1 [named "space" ["local", "object"]],
   [("rotate_instances", whole (geo "RotateInstances") 5 1)],
   varied "sample_curve" (geo "SampleCurve") (recipe · [0, 1, 6, 8] [0, 5, 6, 7] []) [([0, 8], [5,
      6, 7], [adding "mode" [("factor", "", [6]), ("length", "", [7])], attributeTypes])],
   varied "sample_index" (geo "SampleIndex") (recipe · [0, 1, 6] [0] []) [([0, 6], [],
      [attributeTypes, domains])],
   wholly "sample_nearest" (geo "SampleNearest") 2 1 [plain "domain" [("edge", ""), ("face", ""),
      ("face_corner", "CORNER"), ("point", "")]],
   varied "sample_nearest_surface" (geo "SampleNearestSurface") (recipe · [0, 1, 6] [0] []) [([0,
      6], [], [attributeTypes])],
   varied "sample_uv_surface" (geo "SampleUVSurface") (recipe · [0, 1, 6, 7] [0, 5] []) [([0, 6, 7],
      [5], [attributeTypes])],
   wholly "scale_elements" (geo "ScaleElements") 4 1 [named "domain" ["edge", "face"],
      adding "scale_mode" [("single_axis", "", [4]), ("uniform", "", [])]],
   [("scale_instances", whole (geo "ScaleInstances") 5 1),
    ("scene_time", whole (geo "InputSceneTime") 0 2),
    ("self_object", whole (geo "SelfObject") 0 1)],
   wholly "separate_color" "FunctionNodeSeparateColor" 1 4 [colorModes],
   [("separate_components", whole (geo "SeparateComponents") 1 5)],
   wholly "separate_geometry" (geo "SeparateGeometry") 2 2 [parts],
   wholly "set_curve_normal" (geo "SetCurveNormal") 2 1 [named "mode" ["minimum_twist", "z_up"]],
   [("set_curve_radius", whole (geo "SetCurveRadius") 3 1),
    ("set_curve_tilt", whole (geo "SetCurveTilt") 3 1)],
   wholly "set_handle_positions" (geo "SetCurveHandlePositions") 4 1 [named "mode" ["left",
      "right"]]]

def geometryAliasesSetToVolume : List (List (String × NodeRecipe)) :=
  [[("set_handle_type", whole (geo "CurveSetHandles") 2 1),
    ("set_id", whole (geo "SetID") 3 1),
    ("set_material", whole (geo "SetMaterial") 3 1),
    ("set_material_index", whole (geo "SetMaterialIndex") 3 1),
    ("set_point_radius", whole (geo "SetPointRadius") 3 1),
    ("set_position", whole (geo "SetPosition") 4 1),
    ("set_shade_smooth", whole (geo "SetShadeSmooth") 3 1),
    ("set_spline_cyclic", whole (geo "SetSplineCyclic") 3 1),
    ("set_spline_resolution", whole (geo "SetSplineResolution") 3 1)],
   wholly "set_spline_type" (geo "CurveSplineType") 2 1 [named "spline_type" ["bezier",
      "catmull_rom", "nurbs", "poly"]],
   [("shortest_edge_paths", whole (geo "InputShortestEdgePaths") 2 2),
    ("slice_string", whole "FunctionNodeSliceString" 3 1),
    ("special_characters", whole "FunctionNodeInputSpecialCharacters" 0 2),
    ("spiral", whole (geo "CurveSpiral") 6 1),
    ("spline_length", whole (geo "SplineLength") 0 2),
    ("spline_parameter", whole (geo "SplineParameter") 0 3),
    ("spline_resolution", whole (geo "InputSplineResolution") 0 1),
    ("split_edges", whole (geo "SplitEdges") 2 1),
    ("star", whole (geo "CurveStar") 4 2)],
   varied "store_named_attribute" (geo "StoreNamedAttribute") (recipe · [0, 1, 3] [0] []) [([0, 1],
      [0], [adding "data_type" [("2d_vector", "FLOAT2", [2]), ("boolean", "", [5]), ("byte_color",
      "", [4]), ("color", "FLOAT_COLOR", [4]), ("float", "", [3]), ("integer", "INT", [6]),
      ("vector", "FLOAT_VECTOR", [2])], domains])],
   [("string", whole "FunctionNodeInputString" 0 1),
    ("string_length", whole "FunctionNodeStringLength" 1 1)],
   varied "string_to_curves" (geo "StringToCurves") (recipe · [0, 1, 2, 3, 4, 5] [0, 2, 3] []) [([0,
      1, 2, 3, 4, 5], [0, 2, 3], [routing "overflow" [("overflow", "", [], []), ("scale_to_fit", "",
      [6], []), ("truncate", "", [6], [1])], named "align_x" ["center", "flush", "justify", "left",
      "right"], named "align_y" ["bottom_baseline", "bottom", "middle", "top_baseline", "top"],
      named "pivot_mode" ["bottom_center", "bottom_left", "bottom_right", "midpoint", "top_center",
      "top_left", "top_right"]])],
   [("subdivide_curve", whole (geo "SubdivideCurve") 2 1),
    ("subdivide_mesh", whole (geo "SubdivideMesh") 2 1)],
   varied "subdivision_surface" (geo "SubdivisionSurface") (whole · 4 1) [ ([0, 1, 2, 3], [0],
      [plain "uv_smooth" [("all", "SMOOTH_ALL"), ("keep_boundaries", "PRESERVE_BOUNDARIES")],
      plain "boundary_smooth" [("all", ""), ("keep_corners", "PRESERVE_CORNERS")]]), ([0, 1, 2, 3],
      [0], [plain "uv_smooth" [("keep_corners", "PRESERVE_CORNERS"), ("keep_corners_junctions",
      "PRESERVE_CORNERS_AND_JUNCTIONS"), ("keep_corners_junctions_concave",
      "PRESERVE_CORNERS_JUNCTIONS_AND_CONCAVE")], named "boundary_smooth" ["all"]]), ([0, 1, 2, 3],
      [0], [plain "uv_smooth" [("keep_corners_junctions_concave_keep",
      "PRESERVE_CORNERS_JUNCTIONS_AND_CONCAVE"), ("keep_corners_junctions_keep",
      "PRESERVE_CORNERS_AND_JUNCTIONS"), ("keep_corners_keep", "PRESERVE_CORNERS")],
      plain "boundary_smooth" [("corners", "PRESERVE_CORNERS")]]), ([0, 1, 2, 3], [0],
      [named "uv_smooth" ["none"], plain "boundary_smooth" [("all", ""), ("keep_corners",
      "PRESERVE_CORNERS")]])],
   varied "switch" (geo "Switch") (recipe · [1, 14, 15] [6] []) [([], [], [routing "input_type"
      [("boolean", "", [0, 6, 7], [2]), ("collection", "", [1, 18, 19], [8]), ("color", "RGBA", [0,
      10, 11], [4]), ("float", "", [0, 2, 3], [0]), ("geometry", "", [1, 14, 15], [6]), ("image",
      "", [1, 24, 25], [11]), ("integer", "INT", [0, 4, 5], [1]), ("material", "", [1, 22, 23],
      [10]), ("object", "", [1, 16, 17], [7]), ("string", "", [0, 12, 13], [5]), ("texture", "", [1,
      20, 21], [9]), ("vector", "", [0, 8, 9], [3])]])],
   [("transform_geometry", whole (geo "Transform") 4 1),
    ("translate_instances", whole (geo "TranslateInstances") 4 1)],
   wholly "triangulate" (geo "Triangulate") 3 1 [named "quad_method" ["beauty", "fixed_alternate",
      "fixed", "longest_diagonal", "shortest_diagonal"], named "ngon_method" ["beauty", "clip"]],
   varied "trim_curve" (geo "TrimCurve") (whole · 4 1) [([0, 1], [0], [adding "mode" [("factor", "",
      [2, 3]), ("length", "", [4, 5])]])],
   [("uv_sphere", whole (geo "MeshUVSphere") 3 2)],
   wholly "uv_unwrap" (geo "UVUnwrap") 4 1 [named "method" ["angle_based", "conformal"]],
   [("value_to_string", whole "FunctionNodeValueToString" 2 1),
    ("vector", whole "FunctionNodeInputVector" 0 1),
    ("vertex_neighbors", whole (geo "InputMeshVertexNeighbors") 0 2),
    ("vertex_of_corner", whole (geo "VertexOfCorner") 1 1)],
   varied "viewer" (geo "Viewer") (whole · 2 0) [([0], [], [adding "data_type" [("boolean", "",
      [5]), ("color", "FLOAT_COLOR", [3]), ("float", "", [1]), ("integer", "INT", [4]), ("vector",
      "FLOAT_VECTOR", [2])], plain "domain" [("auto", ""), ("edge", ""), ("face", ""),
      ("face_corner", "CORNER"), ("instance", ""), ("point", ""), ("spline", "CURVE")]])],
   [("volume_cube", whole (geo "VolumeCube") 7 1)],
   varied "volume_to_mesh" (geo "VolumeToMesh") (recipe · [0, 3, 4] [0] []) [([0, 3, 4], [0],
      [adding "resolution_mode" [("amount", "VOXEL_AMOUNT", [2]), ("grid", "", []), ("size",
      "VOXEL_SIZE", [1])]])]]

def geometryAliases : List (String × NodeRecipe) :=
  (geometryAliasesAccumulateToFill ++ geometryAliasesFilletToSet ++
    geometryAliasesSetToVolume).flatten

end NodeFormula.Catalog
